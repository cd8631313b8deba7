import StateOwnership.Proofs.Fetch.Looking
import StateOwnership.Proofs.World.Connecting

/-!
# Fetches in two worlds

A fetch runs in a world in which others have made directories and copies, and once more in the world
without them. As long as the others do not open a file on its way, and make no directory where it
opens one, the two runs keep abreast: **the fetch ends with the same outcome, or with the same error
about the same key**.
-/

namespace StateOwnership.Fetch

/-! ## 1. Two worlds in which a fetch runs -/

/-- A key whose directory's path names the directory itself in the middle only if the path is not
too long and no file is or can be opened on its way. -/
def Job.PlainAt (job : Job) (files : FileTree) (key : Text) : Prop :=
  Path.here ∈ (Text.splitOn Path.slash (job.localCopy key).directory).tail →
    Path.octetCount (job.localCopy key).directory ≤ FileTree.pathLimit ∧
      ∀ loc ∈ Path.trail files.start (job.localCopy key).directory,
        files.kind? loc ≠ some .file ∧ ¬ job.MayOpen files loc

/-- Two errors about one key that is not plain, in other words. -/
def Reworded {α : Type} (job : Job) (files : FileTree) (first second : Except Failure α) : Prop :=
  ∃ key ∈ job.backend.keys, ¬ job.PlainAt files key ∧ ∃ words words',
    first = .error (.error (keyError job key words)) ∧
    second = .error (.error (keyError job key words'))

/-- Two ways for a fetch to end that differ at most in the words of an error about a key that is not
plain. -/
def Agree {α : Type} (job : Job) (files : FileTree) (first second : Except Failure α) : Prop :=
  first = second ∨ Reworded job files first second

/-- Two worlds that a fetch has come to from where it began. In the second one there may be more
directories on the way of its copies, where it does not open a file. -/
structure Abreast (job : Job) (base world other : World) : Prop where
  sparing : Sparing job base world
  kept : FileTree.Kept base.files world.files
  rooted : world.files.Rooted
  other_rooted : other.files.Rooted
  start_eq : other.files.start = base.files.start
  kind?_eq : ∀ key ∈ job.backend.keys, ∀ loc ∈ Path.trail base.files.start (job.localPath key),
    other.files.kind? loc = world.files.kind? loc ∨
      (¬ job.MayOpen base.files loc ∧ world.files.kind? loc = none ∧
        other.files.kind? loc = some .directory)
  ticks_eq : other.ticks = world.ticks

/-- A transfer whose file was opened and that was not submitted. -/
structure Pending (job : Job) (files : FileTree) (t : Transfer) : Prop where
  exposed : Exposed job files t
  check_eq : Path.check t.path = .ok ()
  delivery_eq : t.delivery = none

section Abreast

variable {job : Job} {base world other after after' : World} {mapping next : Mapping} {key : Text}
  {keys : List Text}

namespace Abreast

theorem world_start_eq (h : Abreast job base world other) :
    world.files.start = base.files.start := h.sparing.files.start_eq

theorem widened (h : Abreast job base world other) (hkey : key ∈ job.backend.keys) :
    FileTree.Widened (job.localCopy key).directory world.files other.files := by
  refine ⟨h.start_eq.trans h.world_start_eq.symm, fun loc hloc => ?_⟩
  rw [h.world_start_eq] at hloc
  have hpassed : loc ∈ Path.trail base.files.start (job.localPath key) :=
    (Path.trail_join (Path.fileName_no_slash _) _ _).1 hloc
  exact (h.kind?_eq key hkey loc hpassed).imp_right And.right

-- At the place of a copy that may be opened there is no directory of others.
theorem place_eq (h : Abreast job base world other) (hkey : key ∈ job.backend.keys)
    {loc : Location} (hloc : loc ∈ Path.trail world.files.start (job.localPath key))
    (haway : loc ∉ Path.trail world.files.start (job.localCopy key).directory) :
    other.files.kind? loc = world.files.kind? loc := by
  rw [h.world_start_eq] at hloc haway
  refine (h.kind?_eq key hkey loc hloc).resolve_right fun ⟨hclosed, hnone, _⟩ => hclosed ?_
  have hplace : loc = job.place base.files.start key :=
    ((Path.trail_join (Path.fileName_no_slash _) _ _).2 loc hloc).resolve_left haway
  refine ⟨key, hkey, hplace.symm, ⟨hloc, haway⟩, fun _ hfile => ?_⟩
  rw [h.kept.kind?_eq loc (by simp [hfile]), hfile] at hnone
  simp at hnone

theorem begun (h : Abreast job base world other) (hkey : key ∈ job.backend.keys)
    (hplain : world.files.Plain (job.localCopy key).directory)
    (hmade : (world.files.makeDirectories (job.localCopy key).directory).1 = .ok ())
    (hmade' : (other.files.makeDirectories (job.localCopy key).directory).1 = .ok ()) :
    Abreast job base (begun job key world) (begun job key other) := by
  have hwidened := h.widened hkey
  have hgrown := begun_grown job key world
  have hgrown' := begun_grown job key other
  have hdirs := FileTree.directories_of_makeDirectories h.rooted hplain hmade
  have hdirs' := FileTree.directories_of_makeDirectories h.other_rooted
    (hplain.congr hwidened.start_eq hwidened.file_iff) hmade'
  refine ⟨h.sparing.begun hkey, h.kept.trans hgrown.kept, hgrown.kept.rooted h.rooted,
    hgrown'.kept.rooted h.other_rooted, hgrown'.start_eq.trans h.start_eq,
    fun key' hkey' loc hloc => ?_, h.ticks_eq⟩
  by_cases hmem : loc ∈ Path.trail world.files.start (job.localCopy key).directory
  · left
    exact (hdirs' loc (by rwa [hwidened.start_eq])).trans (hdirs loc hmem).symm
  · rw [hgrown.kind?_of_not_mem hmem, hgrown'.kind?_of_not_mem (by rwa [hwidened.start_eq])]
    exact h.kind?_eq key' hkey' loc hloc

theorem of_kinds (h : Abreast job base world other) (hsparing : Sparing job base after)
    (hstart : after.files.start = world.files.start)
    (hkinds : ∀ loc, after.files.kind? loc = world.files.kind? loc)
    (hstart' : after'.files.start = other.files.start)
    (hkinds' : ∀ loc, after'.files.kind? loc = other.files.kind? loc)
    (hticks : after'.ticks = after.ticks) : Abreast job base after after' := by
  have hkept := FileTree.Kept.of_kinds hstart hkinds
  have hkept' := FileTree.Kept.of_kinds hstart' hkinds'
  refine ⟨hsparing, h.kept.trans hkept, hkept.rooted h.rooted, hkept'.rooted h.other_rooted,
    hstart'.trans h.start_eq, fun key hkey loc hloc => ?_, hticks⟩
  rw [hkinds, hkinds']
  exact h.kind?_eq key hkey loc hloc

theorem opened (h : Abreast job base world other) {path : Text} {place : Location}
    {made made' : FileTree} (hopen : world.files.openFile path true = .ok (place, made))
    (hopen' : other.files.openFile path true = .ok (place, made'))
    (hsparing : Sparing job base { world with files := made }) :
    Abreast job base { world with files := made } { other with files := made' } := by
  have hkept := FileTree.kept_openFile hopen
  have hkept' := FileTree.kept_openFile hopen'
  refine ⟨hsparing, h.kept.trans hkept, hkept.rooted h.rooted, hkept'.rooted h.other_rooted,
    hkept'.start_eq.trans h.start_eq, fun key hkey loc hloc => ?_, h.ticks_eq⟩
  obtain ⟨-, hmem, rfl, -, -⟩ := FileTree.openFile_ok hopen
  obtain ⟨-, -, rfl, -, -⟩ := FileTree.openFile_ok hopen'
  have hroot : place ≠ [] := Path.ne_nil_of_mem_trail hmem
  by_cases hplace : place = loc
  · left
    subst hplace
    simp [FileTree.kind?, FileTree.get?_set, hroot]
  · have hsame (files : FileTree) :
        (files.set place (.file [])).kind? loc = files.kind? loc := by
      rw [FileTree.kind?, FileTree.kind?, FileTree.get?_set_of_ne hplace]
    simp only [hsame]
    exact h.kind?_eq key hkey loc hloc

end Abreast
/-! ## 2. Looking at keys in two worlds -/

-- A key that was looked at in both worlds with the same result leaves them abreast.
theorem Abreast.looked {next' : Mapping} (h : Abreast job base world other)
    (hkey : key ∈ job.backend.keys) (hplain : world.files.Plain (job.localCopy key).directory)
    (hpending : ∀ t ∈ mapping.transfers, Pending job base.files t)
    (hlooked : Looked job mapping key world next after)
    (hlooked' : Looked job mapping key other next' after') (hsame : next' = next) :
    Abreast job base after after' ∧ ∀ t ∈ next.transfers, Pending job base.files t := by
  obtain ⟨hsparing, hexposed⟩ := hlooked.sparing h.sparing hkey fun t ht => (hpending t ht).exposed
  cases hlooked with
  | passedOver message hmade hthere hkeep =>
    cases hlooked' with
    | opened hmade' hopen' hnew' => simp at hsame
    | passedOver message' hmade' hthere' hkeep' =>
      have hbegun := h.begun hkey hplain hmade hmade'
      have hrecord := (World.Alike.record (Fetch.begun job key world)
        ⟨Log.debug, Log.fetchSource, message⟩).files
      have hrecord' := (World.Alike.record (Fetch.begun job key other)
        ⟨Log.debug, Log.fetchSource, message'⟩).files
      exact ⟨hbegun.of_kinds hsparing hrecord.start_eq hrecord.kind?_eq hrecord'.start_eq
        hrecord'.kind?_eq hbegun.ticks_eq, hpending⟩
  | @opened place made hmade hopen hnew =>
    cases hlooked' with
    | passedOver message' hmade' hthere' hkeep' => simp at hsame
    | @opened place' made' hmade' hopen' hnew' =>
      obtain rfl : place' = place := by simpa using hsame
      refine ⟨(h.begun hkey hplain hmade hmade').opened hopen hopen' hsparing, fun t ht => ?_⟩
      rcases List.mem_append.mp ht with hold | hlast
      · exact hpending t hold
      · obtain rfl := List.mem_singleton.mp hlast
        exact ⟨hexposed _ ht, (FileTree.openFile_inv hopen).1, rfl⟩

-- An action that fails as another one does agrees with what it agrees with.
theorem Agree.error {α β : Type} {files : FileTree} {failure : Failure}
    {second : Except Failure α} (h : Agree job files (.error failure) second) :
    ∃ failure', second = .error failure' ∧
      Agree job files (.error failure : Except Failure β) (.error failure') := by
  rcases h with rfl | ⟨key, hkey, hplain, words, words', hfirst, hsecond⟩
  · exact ⟨failure, rfl, .inl rfl⟩
  · refine ⟨_, hsecond, .inr ⟨key, hkey, hplain, words, words', ?_, rfl⟩⟩
    rw [Except.error.inj hfirst]

end Abreast

/-! ## 3. The batch -/

/-- What is left of a fetch when all keys are looked at. -/
def filling (cloud : Cloud) (factory : Factory) (job : Job) (mapping : Mapping) :
    Action Outcome := do
  if mapping.transfers ≠ [] then
    Action.record Log.info Log.fetchSource
      ("Downloading " ++ Text.ofNat mapping.transfers.length ++ " state file(s) from " ++
        job.backend.bucket)
    download cloud factory job none mapping.transfers
  let downloaded := mapping.transfers.map (·.key)
  Action.record Log.debug Log.fetchSource
    ("Fetched " ++ job.backend.bucket ++ ": " ++ Text.ofNat downloaded.length ++ " downloaded, " ++
      Text.ofNat mapping.skipped.length ++ " skipped")
  return ⟨job.backend.bucket, mapping.filenames, downloaded, mapping.skipped⟩

section Filling

variable (cloud : Cloud) (factory : Factory) {job : Job} {base world other : World}

theorem fetch_run (world : World) : (fetch cloud factory none job).runIn world =
    match (mapKeys job .empty job.backend.keys).runIn world with
    | (.ok mapping, after) => (filling cloud factory job mapping).runIn after
    | (.error failure, after) => (.error failure, after) := by
  unfold fetch
  rw [Action.runIn_bind]
  rcases (mapKeys job .empty job.backend.keys).runIn world with ⟨failure | mapping, between⟩
  · rfl
  · simp only [filling]

end Filling

end StateOwnership.Fetch
