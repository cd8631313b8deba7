import StateOwnership.Proofs.Fetch.Keys

/-!
# Batches

The transfers of a batch are submitted in order, up to the first that is refused; what they write is
laid over what the files hold. **Discarding takes away the files of the incomplete transfers that
come before the first interruption, and nothing else.** Closing files takes nothing away and brings
nothing back.
-/

namespace StateOwnership.Fetch

/-! ## 1. Connecting -/

def connecting (cloud : Cloud) (factory : Factory) (job : Job) : Action Connection :=
  withClient factory "Unable to connect to" job.backend fun client => client.connect cloud .s3

/-- The world after a fetch said what it is going to download. -/
def announced (job : Job) (transfers : List Transfer) (world : World) : World :=
  world.record ⟨Log.info, Log.fetchSource,
    "Downloading " ++ Text.ofNat transfers.length ++ " state file(s) from " ++ job.backend.bucket⟩

-- Announcing a download and connecting for it change no file but those of the log.
theorem connecting_alike {cloud : Cloud} {factory : Factory} {job : Job}
    {transfers : List Transfer} {world after : World} {result : Except Failure Connection}
    (h : (connecting cloud factory job).runIn (announced job transfers world) = (result, after)) :
    World.Alike world after := by
  have hannounced := World.Alike.record world ⟨Log.info, Log.fetchSource,
    "Downloading " ++ Text.ofNat transfers.length ++ " state file(s) from " ++ job.backend.bucket⟩
  have hconnected := World.Alike.withClient factory "Unable to connect to" job.backend
    (fun client => client.connect cloud .s3) (announced job transfers world)
  have halike := hannounced.trans hconnected
  rwa [show withClient factory "Unable to connect to" job.backend
    (fun client => client.connect cloud .s3) = connecting cloud factory job from rfl, h] at halike

/-! ## 2. Submitting -/

def Transfer.deliver (cloud : Cloud) (bucket : Text) (t : Transfer) : Transfer :=
  { t with delivery := some (cloud.transfer bucket t.key) }

/-- The transfers of a batch after their submission, and the refusal that ended it, if any. -/
def sentOf (cloud : Cloud) (bucket : Text) : List Transfer → List Transfer × Option ServiceError
  | [] => ([], none)
  | t :: rest =>
    match (cloud.transfer bucket t.key).atSubmission, (cloud.transfer bucket t.key).fault with
    | true, some e => (t :: rest, some e)
    | _, _ => (t.deliver cloud bucket :: (sentOf cloud bucket rest).1, (sentOf cloud bucket rest).2)

def submitted (cloud : Cloud) (bucket : Text) : List Transfer → FileTree → FileTree
  | [], files => files
  | t :: rest, files =>
    match (cloud.transfer bucket t.key).atSubmission, (cloud.transfer bucket t.key).fault with
    | true, some _ => files
    | _, _ => submitted cloud bucket rest
        (files.overwriteStart t.place (writtenAtOnce (cloud.transfer bucket t.key).body))

section Submitting

variable (cloud : Cloud) (bucket : Text)

-- Submitting does not fail, and changes the file tree and the list of calls alone.
theorem submit_run (transfers : List Transfer) (world : World) :
    ∃ after, (submit cloud bucket transfers).runIn world =
        (.ok (sentOf cloud bucket transfers), after) ∧
      after.files = submitted cloud bucket transfers world.files ∧ after.log = world.log ∧
      after.ticks = world.ticks := by
  induction transfers generalizing world with
  | nil => exact ⟨world, rfl, rfl, rfl, rfl⟩
  | cons t rest ih =>
    cases hsubmission : (cloud.transfer bucket t.key).atSubmission <;>
      cases hfault : (cloud.transfer bucket t.key).fault
    case true.some e =>
      simp only [submit, sentOf, submitted, Action.runIn_bind, Action.runIn_call, hsubmission,
        hfault]
      exact ⟨_, rfl, rfl, rfl, rfl⟩
    all_goals
      -- The transfer is accepted.
      simp only [submit, sentOf, submitted, Action.runIn_bind, Action.runIn_call,
        Action.runIn_changeFiles, hsubmission, hfault]
      obtain ⟨after, hrun, hafter⟩ := ih { world.call (.download bucket t.key) with
        files := (world.call (.download bucket t.key)).files.overwriteStart t.place
          (writtenAtOnce (cloud.transfer bucket t.key).body) }
      refine ⟨after, ?_, hafter⟩
      rw [hrun]
      rfl

theorem submitted_kept (transfers : List Transfer) (files : FileTree) :
    (submitted cloud bucket transfers files).start = files.start ∧
      ∀ loc, (submitted cloud bucket transfers files).kind? loc = files.kind? loc := by
  induction transfers generalizing files with
  | nil => exact ⟨rfl, fun _ => rfl⟩
  | cons t rest ih =>
    rw [submitted]
    split
    · exact ⟨rfl, fun _ => rfl⟩
    · obtain ⟨hstart, hkinds⟩ := ih (files.overwriteStart t.place
        (writtenAtOnce (cloud.transfer bucket t.key).body))
      refine ⟨hstart.trans (FileTree.start_overwriteStart _ _ _), fun loc => ?_⟩
      rw [hkinds, FileTree.kind?_overwriteStart]

-- Submission keeps the paths and places of transfers.
theorem mem_sentOf {transfers : List Transfer} {s : Transfer}
    (h : s ∈ (sentOf cloud bucket transfers).1) :
    ∃ t ∈ transfers, s.path = t.path ∧ s.place = t.place := by
  induction transfers with
  | nil => simp [sentOf] at h
  | cons t rest ih =>
    rw [sentOf] at h
    split at h
    · exact ⟨s, h, rfl, rfl⟩
    · rcases List.mem_cons.mp h with rfl | h
      · exact ⟨t, by simp, rfl, rfl⟩
      · obtain ⟨t', ht', hsame⟩ := ih h
        exact ⟨t', List.mem_cons_of_mem _ ht', hsame⟩

end Submitting

theorem Opened.congr {files : FileTree} {s t : Transfer} (h : Opened files t)
    (hpath : s.path = t.path) (hplace : s.place = t.place) : Opened files s := by
  constructor
  · exact hpath ▸ h.check_eq
  · rw [hpath, hplace]
    exact h.locate_eq
  · rw [hpath, hplace]
    exact h.place_mem
  · rw [hpath, hplace]
    exact h.directories
  · rw [hplace]
    exact h.kind?_eq

-- Submitting a batch leaves its files where their paths lead.
theorem opened_sentOf (cloud : Cloud) (bucket : Text) {transfers : List Transfer}
    {files : FileTree} (h : ∀ t ∈ transfers, Opened files t) :
    ∀ s ∈ (sentOf cloud bucket transfers).1,
      Opened (submitted cloud bucket transfers files) s := by
  intro s hs
  obtain ⟨t, ht, hpath, hplace⟩ := mem_sentOf cloud bucket hs
  obtain ⟨hstart, hkinds⟩ := submitted_kept cloud bucket transfers files
  exact ((h t ht).kept (.of_kinds hstart hkinds)).congr hpath hplace

/-! ## 3. Waiting -/

theorem await_run (job : Job) (cancelAt : Option Nat) (transfers : List Transfer)
    (world : World) : ((await job cancelAt transfers).runIn world).2.files = world.files ∧
      ((await job cancelAt transfers).runIn world).2.log = world.log := by
  cases cancelAt with
  | none => exact ⟨rfl, rfl⟩
  | some cancelAt =>
    simp only [await, Action.runIn_bind, Action.runIn_ticks, Action.runIn_modify]
    split <;> exact ⟨rfl, rfl⟩

theorem collect_run (job : Job) (transfers : List Transfer) (world : World) :
    ((collect job transfers).runIn world).2 = world := by
  induction transfers with
  | nil => rfl
  | cons t rest ih =>
    rw [collect]
    split
    · exact ih
    · rfl
    · rfl

-- Waiting for transfers and asking for their results touches no file.
theorem finish_run (job : Job) (cancelAt : Option Nat) (sent : List Transfer)
    (refused : Option ServiceError) (world : World) :
    ((finish job cancelAt sent refused).runIn world).2.files = world.files ∧
      ((finish job cancelAt sent refused).runIn world).2.log = world.log := by
  cases refused with
  | some e => exact ⟨rfl, rfl⟩
  | none =>
    have hawait := await_run job cancelAt sent world
    simp only [finish, Action.runIn_bind]
    rcases hrun : (await job cancelAt sent).runIn world with ⟨failure | _, between⟩
    · rw [hrun] at hawait
      exact hawait
    · rw [hrun] at hawait
      simp only
      rw [collect_run]
      exact hawait

/-! ## 4. Discarding -/

/-- The incomplete transfers before the first one that interrupts the program. -/
def cleaned (ticks : Nat) (transfers : List Transfer) : List Transfer :=
  (transfers.takeWhile (·.verdict ticks ≠ .interrupted)).filter (·.verdict ticks ≠ .succeeded)

/-- The transfers that did not succeed from the first one on that interrupts the program. -/
def stranded (ticks : Nat) (transfers : List Transfer) : List Transfer :=
  (transfers.dropWhile (·.verdict ticks ≠ .interrupted)).filter (·.verdict ticks ≠ .succeeded)

/-- A tree from which the files at some places were taken away. -/
structure Cleared (places : List Location) (files after : FileTree) : Prop where
  start_eq : after.start = files.start
  gone : ∀ loc ∈ places, files.kind? loc = some .file → after.kind? loc = none
  left : ∀ loc, (loc ∈ places → files.kind? loc ≠ some .file) → after.kind? loc = files.kind? loc

namespace Cleared

variable {places others : List Location} {files between after : FileTree}

theorem of_kinds (hstart : after.start = files.start)
    (h : ∀ loc, after.kind? loc = files.kind? loc) : Cleared [] files after :=
  ⟨hstart, by simp, fun loc _ => h loc⟩

theorem trans (h : Cleared places files between) (h' : Cleared others between after) :
    Cleared (places ++ others) files after := by
  refine ⟨h'.start_eq.trans h.start_eq, fun loc hmem hfile => ?_, fun loc hleft => ?_⟩
  · by_cases hfirst : loc ∈ places
    · have hnone := h.gone loc hfirst hfile
      rw [h'.left loc (by simp [hnone]), hnone]
    · have hthen : loc ∈ others := (List.mem_append.mp hmem).resolve_left hfirst
      have hsame := h.left loc fun hplaces => absurd hplaces hfirst
      exact h'.gone loc hthen (hsame.trans hfile)
  · have hsame := h.left loc fun hplaces => hleft (List.mem_append_left _ hplaces)
    rw [h'.left loc fun hothers => hsame ▸ hleft (List.mem_append_right _ hothers), hsame]

theorem congr (h : Cleared places files after) (hsame : ∀ loc, loc ∈ places ↔ loc ∈ others) :
    Cleared others files after :=
  ⟨h.start_eq, fun loc hmem => h.gone loc ((hsame loc).mpr hmem),
    fun loc hleft => h.left loc fun hmem => hleft ((hsame loc).mp hmem)⟩

theorem erase {place : Location} (hfile : files.kind? place = some .file) :
    Cleared [place] files (files.erase place) := by
  refine ⟨rfl, fun loc hmem _ => ?_, fun loc hleft => ?_⟩
  · rw [FileTree.kind?_erase hfile, if_pos (List.mem_singleton.mp hmem).symm]
  · rw [FileTree.kind?_erase hfile, if_neg]
    rintro rfl
    exact hleft (by simp) hfile

end Cleared

theorem close_kept (t : Transfer) (files : FileTree) :
    (t.close files).start = files.start ∧ ∀ loc, (t.close files).kind? loc = files.kind? loc := by
  unfold Transfer.close
  split
  · exact ⟨rfl, fun _ => rfl⟩
  · exact ⟨FileTree.start_overwriteStart _ _ _, fun _ => FileTree.kind?_overwriteStart _ _ _ _⟩

theorem closeAll_kept (transfers : List Transfer) (files : FileTree) :
    (closeAll transfers files).start = files.start ∧
      ∀ loc, (closeAll transfers files).kind? loc = files.kind? loc := by
  induction transfers with
  | nil => exact ⟨rfl, fun _ => rfl⟩
  | cons t rest ih =>
    obtain ⟨hstart, hkinds⟩ := close_kept t (closeAll rest files)
    exact ⟨hstart.trans ih.1, fun loc => (hkinds loc).trans (ih.2 loc)⟩

-- A path whose file was opened leads to it after a clearance that left the file where it is.
theorem Opened.locate_cleared {files after : FileTree} {t : Transfer} {places : List Location}
    (h : Opened files t) (hcleared : Cleared places files after) (hleft : t.place ∉ places) :
    after.locate t.path = .ok t.place := by
  rw [← h.locate_eq]
  apply FileTree.locate_congr hcleared.start_eq
  intro loc hloc
  apply hcleared.left
  intro hplaces
  -- All but the place of the file is a directory on the way.
  have hdir := h.directories loc hloc fun heq => hleft (heq ▸ hplaces)
  simp [hdir]

-- A path whose file was opened leads somewhere after a clearance if and only if its file was left
-- where it is.
theorem Opened.pathExists_iff {files after : FileTree} {t : Transfer} {places : List Location}
    (h : Opened files t) (hcleared : Cleared places files after) :
    after.pathExists t.path = true ↔ t.place ∉ places := by
  constructor
  · intro hthere hmem
    refine FileTree.kind?_of_pathExists hthere ?_ (hcleared.gone t.place hmem h.kind?_eq)
    rw [hcleared.start_eq]
    exact h.place_mem
  · intro hleft
    exact FileTree.pathExists_of_locate h.check_eq (h.locate_cleared hcleared hleft)

-- Removing leaves the setup of the log and the number of waits alone.
theorem remove_quiet (t : Transfer) (world : World) :
    ((remove t).runIn world).2.log = world.log ∧
      ((remove t).runIn world).2.ticks = world.ticks := by
  simp only [remove, Action.runIn_bind, Action.runIn_files]
  split
  · exact ⟨rfl, rfl⟩
  · simp only [Action.runIn_bind, Action.runIn_setFiles]
    split <;> exact ⟨rfl, rfl⟩
  · exact ⟨rfl, rfl⟩

-- Removing what an opened path names takes away its file, if it is still there, and does not fail.
theorem remove_run {base : FileTree} {gone : List Location} {t : Transfer} {world : World}
    (hopened : Opened base t) (hcleared : Cleared gone base world.files) :
    ∃ after, (remove t).runIn world = (.ok (), after) ∧
      Cleared (gone ++ [t.place]) base after.files := by
  obtain ⟨hstart, hkinds⟩ := close_kept t world.files
  have hclosed : Cleared gone base (t.close world.files) := by
    simpa using hcleared.trans (.of_kinds hstart hkinds)
  have hrecorded {files : FileTree} (h : Cleared (gone ++ [t.place]) base files)
      (r : Log.Record) : Cleared (gone ++ [t.place]) base ({ world with files := files }.record r).files := by
    have hrecord := (World.Alike.record { world with files := files } r).files
    simpa using h.trans (.of_kinds hrecord.start_eq hrecord.kind?_eq)
  simp only [remove, Action.runIn_bind, Action.runIn_files]
  by_cases hgone : t.place ∈ gone
  · -- The file is gone already, and nothing else is at the end of the path.
    have hplace : Path.target (t.close world.files).start t.path = t.place := by
      rw [hclosed.start_eq, (FileTree.locate_ok hopened.locate_eq).1]
    have hnone := hclosed.gone t.place hgone hopened.kind?_eq
    have hleft : Cleared (gone ++ [t.place]) base (t.close world.files) :=
      hclosed.congr fun loc => by
        rw [List.mem_append, List.mem_singleton]
        exact ⟨.inl, fun h => h.elim id fun heq => heq ▸ hgone⟩
    split
    · rename_i after hremove
      have hfile := (FileTree.removeFile_ok hremove).1
      rw [hplace, hnone] at hfile
      simp at hfile
    · simp only [Action.runIn_bind, Action.runIn_setFiles]
      split
      · exact ⟨_, rfl, hrecorded hleft _⟩
      · exact ⟨_, rfl, hleft⟩
    · rename_i fault hremove
      exact absurd hopened.check_eq (FileTree.check_of_removeFile_path hremove)
  · have hfile : (t.close world.files).kind? t.place = some .file := by
      rw [hclosed.left t.place fun hmem => absurd hmem hgone, hopened.kind?_eq]
    rw [FileTree.removeFile_of_locate hopened.check_eq (hopened.locate_cleared hclosed hgone) hfile]
    exact ⟨_, rfl, hrecorded (hclosed.trans (.erase hfile)) _⟩

-- Discarding leaves the setup of the log and the number of waits alone.
theorem discard_quiet (transfers : List Transfer) (world : World) :
    ((discard transfers).runIn world).2.log = world.log ∧
      ((discard transfers).runIn world).2.ticks = world.ticks := by
  induction transfers generalizing world with
  | nil => exact ⟨rfl, rfl⟩
  | cons t rest ih =>
    simp only [discard, Action.runIn_bind, Action.runIn_ticks]
    split
    · exact ih world
    · exact ⟨rfl, rfl⟩
    · have hremove := remove_quiet t world
      simp only [Action.runIn_bind]
      rcases hrun : (remove t).runIn world with ⟨failure | _, between⟩
      · rw [hrun] at hremove
        exact hremove
      · rw [hrun] at hremove
        exact ⟨(ih between).1.trans hremove.1, (ih between).2.trans hremove.2⟩

-- Discarding takes away the files of the incomplete transfers before the first interruption, and
-- nothing else.
theorem discard_run {base : FileTree} {gone : List Location} {transfers : List Transfer}
    {world : World} (hopened : ∀ t ∈ transfers, Opened base t)
    (hcleared : Cleared gone base world.files) :
    Cleared (gone ++ (cleaned world.ticks transfers).map (·.place)) base
      ((discard transfers).runIn world).2.files := by
  induction transfers generalizing world gone with
  | nil => simpa [cleaned, discard] using hcleared
  | cons t rest ih =>
    have hrest : ∀ s ∈ rest, Opened base s := fun s hs => hopened s (List.mem_cons_of_mem _ hs)
    simp only [discard, Action.runIn_bind, Action.runIn_ticks]
    cases hverdict : t.verdict world.ticks with
    | succeeded =>
      have hcleaned : cleaned world.ticks (t :: rest) = cleaned world.ticks rest := by
        simp [cleaned, hverdict]
      rw [hcleaned]
      exact ih hrest hcleared
    | interrupted =>
      have hcleaned : cleaned world.ticks (t :: rest) = [] := by
        simp [cleaned, hverdict]
      simpa [hcleaned] using hcleared
    | incomplete =>
      have hcleaned : cleaned world.ticks (t :: rest) = t :: cleaned world.ticks rest := by
        simp [cleaned, hverdict]
      obtain ⟨between, hremove, hbetween⟩ := remove_run (hopened t List.mem_cons_self) hcleared
      have hticks := (remove_quiet t world).2
      rw [hremove] at hticks
      have hthen := ih hrest hbetween
      rw [hticks, List.append_assoc] at hthen
      simp only [Action.runIn_bind, hremove, hcleaned, List.map_cons]
      exact hthen

end StateOwnership.Fetch
