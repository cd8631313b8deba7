import Mathlib.Data.List.Infix
import StateOwnership.Proofs.FileTree.Parents
import StateOwnership.Proofs.Fetch.Sparing

/-!
# Backends that do not touch each other

The copies of a backend stand in the directory of its bucket, unless a key leads out of it. **A fetch
changes a file in the directory of another bucket only at the place of a copy whose key climbs above
the directory of its own bucket.** Such keys are fetched like any other.
-/

namespace StateOwnership

/-! ## 1. Names that climb -/

namespace Path

/-- A name of an entry: a single component that stands for no directory by itself. -/
def IsName (name : Text) : Prop := FileTree.Proper name ∧ slash ∉ name

instance (name : Text) : Decidable (IsName name) :=
  inferInstanceAs (Decidable ((name ≠ [] ∧ name ≠ here ∧ name ≠ up) ∧ slash ∉ name))

/-- Whether names lead above the place that they are followed from, if they have gone `depth` levels
down before. -/
def climbs : (depth : Nat) → List Text → Bool
  | _, [] => false
  | depth, name :: rest =>
    if name = [] || name = here then climbs depth rest
    else if name = up then
      match depth with
      | 0 => true
      | depth + 1 => climbs depth rest
    else climbs (depth + 1) rest

-- Names that do not climb lead to a place below the one that they are followed from.
theorem prefix_follow_of_not_climbs {place below : Location} {names : List Text}
    (h : climbs below.length names = false) :
    place <+: FileTree.follow (place ++ below) names := by
  induction names generalizing below with
  | nil => exact List.prefix_append place below
  | cons name rest ih =>
    simp only [climbs] at h
    simp only [FileTree.follow]
    split
    · rename_i hstay
      rw [if_pos hstay] at h
      exact ih h
    · rename_i hstay
      rw [if_neg hstay] at h
      split
      · rename_i hup
        rw [if_pos hup] at h
        -- Going up ends below the place, as something below it was gone down to before.
        rcases List.eq_nil_or_concat below with rfl | ⟨above, last, rfl⟩
        · simp at h
        · rw [List.concat_eq_append, ← List.append_assoc, List.dropLast_concat]
          apply ih
          simpa using h
      · rename_i hup
        rw [if_neg hup] at h
        rw [List.append_assoc]
        apply ih
        simpa using h

/-! ## 2. Components of the path of a copy -/

theorem components_stripLeft (t : Text) : components (Text.stripLeft slash t) = components t := by
  have hwhole := List.takeWhile_append_dropWhile (p := (· == slash)) (l := t)
  have hslashes : ∀ c ∈ t.takeWhile (· == slash), c = slash := by
    intro c hc
    simpa using List.mem_takeWhile_imp hc
  calc components (Text.stripLeft slash t)
      = components (t.takeWhile (· == slash) ++ t.dropWhile (· == slash)) :=
        (components_slashes_append hslashes _).symm
    _ = components t := by rw [hwhole]

-- The components of a path are those of its directory part and its file name.
theorem components_directory_fileName (p : Text) :
    components (directory p) ++ components (fileName p) = components p := by
  rcases directory_of_fileName p with ⟨hdir, hwhole⟩ | ⟨a, run, hwhole, hrun, -, hparent⟩
  · rw [hdir, ← hwhole]
    rfl
  · have ha : components (directory p) = components a := by
      rcases hparent with heq | ⟨heq, -⟩
      · rw [heq]
      · rw [heq, components_concat_slash]
    calc components (directory p) ++ components (fileName p)
        = components a ++ components (run ++ fileName p) := by
          rw [ha, components_slashes_append hrun]
      _ = components p := by rw [← components_append_slash, ← hwhole]

theorem target_join {name : Text} (h : IsName name) (start : Location) (p : Text) :
    target start (join p name) = target start p ++ [name] := by
  have hrelative := isAbsolute_of_no_slash h.2
  rw [target, origin_join hrelative, components_join hrelative,
    components_of_no_slash h.1.1 h.2, FileTree.follow_append, FileTree.follow_proper h.1]
  rfl

end Path

namespace Fetch

/-- The substituted key of an object leads above the directory of its bucket. -/
def Job.Climbs (job : Job) (key : Text) : Prop :=
  Path.climbs 0 (Path.components (job.options.substitute key)) = true

instance (job : Job) (key : Text) : Decidable (job.Climbs key) :=
  inferInstanceAs (Decidable (_ = true))

section Places

variable {job : Job}

-- The components of the path of a copy are those of the destination, the bucket and the substituted
-- key.
theorem components_localPath (h : Path.isAbsolute job.backend.bucket = false) (key : Text) :
    Path.components (job.localPath key) = Path.components job.destination ++
      Path.components job.backend.bucket ++ Path.components (job.options.substitute key) := by
  have hname := Path.isAbsolute_of_no_slash (Path.fileName_no_slash (job.options.substitute key))
  have hinner := Path.isAbsolute_stripLeft (Path.directory (job.options.substitute key))
  rw [Job.localPath, Job.localCopy, place, Path.components_join hname, Path.components_join hinner,
    Path.components_join h, Path.components_stripLeft, List.append_assoc,
    Path.components_directory_fileName]

-- The copy of a key stands where the substituted key leads to from the directory of the bucket.
theorem place_eq_follow (h : Path.isAbsolute job.backend.bucket = false) (start : Location)
    (key : Text) : job.place start key =
      FileTree.follow (Path.target start (Path.join job.destination job.backend.bucket))
        (Path.components (job.options.substitute key)) := by
  have hname := Path.isAbsolute_of_no_slash (Path.fileName_no_slash (job.options.substitute key))
  have hinner := Path.isAbsolute_stripLeft (Path.directory (job.options.substitute key))
  have horigin : Path.origin start (job.localPath key) = Path.origin start job.destination := by
    rw [Job.localPath, Job.localCopy, place, Path.origin_join hname, Path.origin_join hinner,
      Path.origin_join h]
  rw [Job.place, Path.target, horigin, components_localPath h, FileTree.follow_append,
    Path.target, Path.origin_join h, Path.components_join h]

-- The copy of a key that does not climb stands in the directory of its bucket.
theorem prefix_place (h : Path.isAbsolute job.backend.bucket = false) (start : Location)
    {key : Text} (hkey : ¬ job.Climbs key) :
    Path.target start (Path.join job.destination job.backend.bucket) <+: job.place start key := by
  have hstays : Path.climbs ([] : Location).length
      (Path.components (job.options.substitute key)) = false := by
    simpa [Job.Climbs] using hkey
  have hprefix : Path.target start (Path.join job.destination job.backend.bucket) <+:
      FileTree.follow (Path.target start (Path.join job.destination job.backend.bucket) ++ [])
        (Path.components (job.options.substitute key)) := Path.prefix_follow_of_not_climbs hstays
  rwa [List.append_nil, ← place_eq_follow h] at hprefix

-- A copy in the directory of another bucket belongs to a key that climbs.
theorem climbs_of_prefix {other : Text} (hbucket : Path.IsName job.backend.bucket)
    (hother : Path.IsName other) (hne : job.backend.bucket ≠ other) {start : Location} {key : Text}
    (h : Path.target start (Path.join job.destination other) <+: job.place start key) :
    job.Climbs key := by
  by_contra hstays
  have hown := prefix_place (Path.isAbsolute_of_no_slash hbucket.2) start hstays
  rw [Path.target_join hbucket] at hown
  rw [Path.target_join hother] at h
  have hsame := List.prefix_of_prefix_length_le hown h (by simp)
  have heq := hsame.eq_of_length (by simp)
  exact hne (by simpa using heq)

end Places

/-! ## 3. Files of other backends -/

/-- **A fetch changes a file in the directory of another bucket only at the place of a copy whose key
climbs**, however it ends. There it writes as anywhere else: a fetch that succeeds and overwrites
leaves the body of the object, or the bodies of all objects whose copies stand there. -/
theorem fetch_isolated {job : Job} {other : Text} {world : World}
    (hbucket : Path.IsName job.backend.bucket) (hother : Path.IsName other)
    (hne : job.backend.bucket ≠ other) (hroot : world.files.Rooted) (cloud : Cloud)
    (factory : Factory) (cancelAt : Option Nat) :
    let run := (fetch cloud factory cancelAt job).runIn world
    ∀ loc, Path.target world.files.start (Path.join job.destination other) <+: loc →
      (∃ key ∈ job.backend.keys, job.place world.files.start key = loc ∧ job.Climbs key ∧
          (run.1.toBool = true → job.options.overwrite = true → loc ∉ world.log.places →
            run.2.files.get? loc =
              some (.file (layered (job.bodiesAt cloud world.files.start loc))))) ∨
        (run.2.files.kind? loc = some .file ↔ world.files.kind? loc = some .file) ∧
          (loc ∉ world.log.places → ∀ content, run.2.files.get? loc = some (.file content) ↔
            world.files.get? loc = some (.file content)) := by
  intro run loc hbelow
  obtain ⟨hspared, -⟩ := fetch_sparing cloud factory cancelAt job world
  by_cases hcopy : ∃ key ∈ job.backend.keys, job.place world.files.start key = loc
  · left
    obtain ⟨key, hkey, hplace⟩ := hcopy
    refine ⟨key, hkey, hplace, climbs_of_prefix hbucket hother hne (hplace ▸ hbelow),
      fun hok hanew hlog => ?_⟩
    rcases hrun : run with ⟨failure | outcome, after⟩
    · simp [hrun, Except.toBool] at hok
    · have hhere : job.keysAt world.files.start loc ≠ [] := by
        have hmem : key ∈ job.keysAt world.files.start loc := by simp [Job.keysAt, hkey, hplace]
        exact List.ne_nil_of_mem hmem
      rw [(fetch_ok hroot hrun).get?_eq loc hlog, settled_of_overwrite hanew hhere]
  · right
    have hclosed : ¬ job.MayOpen world.files loc := by
      rintro ⟨key, hkey, hplace, -, -⟩
      exact hcopy ⟨key, hkey, hplace⟩
    exact ⟨hspared.file_iff hclosed, hspared.content_iff hclosed⟩

/-- A world in which the copy of `x` of the bucket `c` is there. -/
def neighbourWorld : World :=
  { sampleWorld with
    files := ((sampleWorld.files.set ["w", "d"] .directory).set ["w", "d", "c"] .directory).set
      ["w", "d", "c", "x"] (.file [1]) }

theorem rooted_neighbourWorld : neighbourWorld.files.Rooted := by
  have hall : ∀ loc ∈ List.inits neighbourWorld.files.start,
      neighbourWorld.files.kind? loc = some .directory := by decide
  exact fun loc hloc => hall loc ((List.mem_inits loc _).mpr hloc)

/-- The copies of keys that do not climb leave the file of another bucket as it is, though the way of
one goes through its own bucket's `c` and back, and the other one stands below it. -/
theorem isolated_from_inner_parent :
    let run := (fetch spellingCloud .standard none (sampleJob ["c/../a", "/c/x"] true)).runIn
      neighbourWorld
    run.1.toBool = true ∧ run.2.files.get? ["w", "d", "c", "x"] = some (.file [1]) := by
  refine ⟨by decide +kernel, ?_⟩
  rcases @fetch_isolated (sampleJob ["c/../a", "/c/x"] true) "c" neighbourWorld
    (by decide) (by decide) (by decide) rooted_neighbourWorld spellingCloud .standard none
    ["w", "d", "c", "x"] (by decide) with ⟨key, hkey, -, hclimbs, -⟩ | ⟨-, hcontent⟩
  · have hstay : ∀ key ∈ (sampleJob ["c/../a", "/c/x"] true).backend.keys,
        ¬ (sampleJob ["c/../a", "/c/x"] true).Climbs key := by decide
    exact absurd hclimbs (hstay key hkey)
  · exact (hcontent (by decide) [1]).mpr (by decide)

def emptyCloud : Cloud :=
  { spellingCloud with
    transfer := fun _ _ => ⟨[], some (.refused "404" "HeadObject" "Not Found"), false, 0⟩ }

/-- **The fetch of one backend takes away the file of another**: the key `../c/x` of the bucket `b`
leads to the directory of the bucket `c`, and when its download fails, what stands there is removed as
an incomplete copy. -/
theorem removed_from_other_bucket :
    let run := (fetch emptyCloud .standard none (sampleJob ["../c/x"] true)).runIn neighbourWorld
    Path.IsName "b" ∧ Path.IsName "c" ∧
      Path.target neighbourWorld.files.start (Path.join "d" "c") <+: ["w", "d", "c", "x"] ∧
      neighbourWorld.files.get? ["w", "d", "c", "x"] = some (.file [1]) ∧
      run.2.files.get? ["w", "d", "c", "x"] = none := by
  decide +kernel

end Fetch
end StateOwnership
