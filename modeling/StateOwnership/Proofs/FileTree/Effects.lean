import Mathlib.Data.List.Basic
import StateOwnership.Proofs.FileTree.Targets

/-!
# What operations by path do at each location

**Opening a file for writing changes the target of its path and nothing else; making directories
adds directories on the trail of their path and changes nothing that was there.** A path whose file
was opened leads to it for as long as the directories on its trail stay.
-/

namespace StateOwnership.FileTree

/-! ## 1. Looking up -/

theorem locate_ok {tree : FileTree} {p : Text} {found : Location}
    (h : tree.locate p = .ok found) :
    found = Path.target tree.start p ∧
      ∀ other ∈ Path.trail tree.start p, tree.kind? other ≠ none := by
  unfold locate at h
  split at h
  · simp at h
  split at h
  · simp at h
  rw [reach_eq_walk] at h
  obtain ⟨hend, hthere, -⟩ := walk_ok h
  rw [Path.target, Path.trail, Path.components, follow_filter, passed_filter]
  exact ⟨hend, hthere⟩

-- Where a path leads depends on the kinds of what it passes alone.
theorem locate_congr {tree other : FileTree} {p : Text} (hstart : other.start = tree.start)
    (h : ∀ loc ∈ Path.trail tree.start p, other.kind? loc = tree.kind? loc) :
    other.locate p = tree.locate p := by
  have hwalk : other.walk (other.startOf p) (Text.splitOn Path.slash p) =
      tree.walk (tree.startOf p) (Text.splitOn Path.slash p) := by
    rw [startOf, startOf, hstart]
    apply walk_congr
    rwa [Path.trail, Path.components, passed_filter] at h
  simp only [locate, reach_eq_walk, hwalk]

theorem pathExists_ok {tree : FileTree} {p : Text} (h : tree.pathExists p = true) :
    Path.check p = .ok () ∧ ∃ found, tree.locate p = .ok found := by
  rw [pathExists, Bool.and_eq_true] at h
  constructor
  · cases hcheck : Path.check p with
    | error fault => simp [hcheck, Except.toBool] at h
    | ok value => rfl
  · cases hfound : tree.locate p with
    | error cause => simp [hfound, Except.toBool] at h
    | ok found => exact ⟨found, rfl⟩

theorem pathExists_of_locate {tree : FileTree} {p : Text} {found : Location}
    (hcheck : Path.check p = .ok ()) (h : tree.locate p = .ok found) :
    tree.pathExists p = true := by
  simp [pathExists, hcheck, h, Except.toBool]

-- What a path passes is there if the path leads to something.
theorem kind?_of_pathExists {tree : FileTree} {p : Text} (h : tree.pathExists p = true)
    {other : Location} (hother : other ∈ Path.trail tree.start p) : tree.kind? other ≠ none := by
  obtain ⟨-, found, hfound⟩ := pathExists_ok h
  exact (locate_ok hfound).2 other hother

-- If a file name in a directory leads to something, all that the directory's path passes are
-- directories.
theorem directories_of_locate {tree : FileTree} {directory name : Text} {found : Location}
    (h : tree.locate (Path.join directory name) = .ok found) (hname : Path.slash ∉ name) :
    ∀ loc ∈ Path.trail tree.start directory, tree.kind? loc = some .directory := by
  unfold locate at h
  split at h
  · simp at h
  split at h
  · simp at h
  rw [reach_eq_walk] at h
  have hdirs := (walk_ok h).2.2
  rw [← passed_filter, Path.dropLast_splitOn_join hname] at hdirs
  have horigin := Path.origin_join (Path.isAbsolute_of_no_slash hname) tree.start directory
  intro loc hloc
  rw [Path.trail, ← horigin] at hloc
  exact hdirs loc hloc

/-- A tree in which the directory that relative paths start from is there. -/
def Rooted (tree : FileTree) : Prop :=
  ∀ loc, loc <+: tree.start → tree.kind? loc = some .directory

-- In a new tree the directory that relative paths start from is there.
theorem rooted_fresh (start : Location) : (fresh start).Rooted := by
  have hmade (n : Nat) (loc : Location) (hloc : loc <+: start) (hlength : loc.length ≤ n) :
      ((List.range n).foldl (fun (tree : FileTree) n => tree.set (start.take (n + 1)) .directory)
        ⟨∅, start⟩).kind? loc = some .directory := by
    induction n with
    | zero =>
      rw [List.eq_nil_of_length_eq_zero (Nat.le_zero.mp hlength), kind?_root]
    | succ n ih =>
      rw [List.range_succ, List.foldl_append, List.foldl_cons, List.foldl_nil, kind?, get?_set]
      by_cases hnil : loc = []
      · rw [if_pos hnil]
        rfl
      rw [if_neg hnil]
      by_cases hnew : start.take (n + 1) = loc
      · rw [if_pos hnew]
        rfl
      · rw [if_neg hnew]
        apply ih
        have hne : loc.length ≠ n + 1 := by
          intro hlast
          rw [← hlast] at hnew
          exact hnew (List.prefix_iff_eq_take.mp hloc).symm
        omega
  have hstart (n : Nat) : ((List.range n).foldl (fun (tree : FileTree) n =>
      tree.set (start.take (n + 1)) .directory) ⟨∅, start⟩).start = start := by
    induction n with
    | zero => rfl
    | succ n ih => rwa [List.range_succ, List.foldl_append]
  intro loc hloc
  rw [fresh, hstart] at hloc
  exact hmade _ loc hloc hloc.length_le

-- Where a path leads there is something.
theorem kind?_of_locate {tree : FileTree} {p : Text} {found : Location} (hroot : tree.Rooted)
    (h : tree.locate p = .ok found) : tree.kind? found ≠ none := by
  obtain ⟨htarget, hthere⟩ := locate_ok h
  rcases mem_passed_of_prefix (htarget ▸ List.prefix_rfl : found <+: Path.target tree.start p)
    with hpassed | hprefix
  · exact hthere found hpassed
  · have hdir : tree.kind? found = some .directory := by
      unfold Path.origin at hprefix
      split at hprefix
      · rw [List.prefix_nil.mp hprefix]
        exact kind?_root tree
      · exact hroot found hprefix
    simp [hdir]

/-! ## 2. Places for new entries -/

theorem walkToDirectory_ok {tree : FileTree} {place found : Location} {names : List Text}
    (h : tree.walkToDirectory place names = .ok found) :
    tree.walk place names = .ok found ∧ tree.kind? found = some .directory := by
  unfold walkToDirectory at h
  rw [reach_eq_walk] at h
  split at h
  · simp at h
  · rename_i dir hwalk
    split at h
    · rename_i hdir
      simp only [Except.ok.injEq] at h
      exact h ▸ ⟨hwalk, kind?_eq_directory.mpr hdir⟩
    · simp at h

-- The place that a path has for a new entry: a proper name in a directory to which its other
-- components lead.
theorem slot_ok {tree : FileTree} {p name : Text} {parent : Location}
    (h : tree.slot p = .ok (parent, some name)) :
    p ≠ [] ∧ Path.octetCount p ≤ pathLimit ∧ Proper name ∧
      Path.components p = (Path.components p).dropLast ++ [name] ∧
      tree.walk (Path.origin tree.start p) (Path.components p).dropLast = .ok parent ∧
      tree.kind? parent = some .directory := by
  unfold slot at h
  split at h
  · simp at h
  rename_i hp
  split at h
  · simp at h
  rename_i hlong
  simp only at h
  split at h
  · simp at h
  rename_i dir hdir
  obtain ⟨hwalk, hkind⟩ := walkToDirectory_ok hdir
  split at h
  · simp at h
  rename_i last hlast
  simp only [Except.ok.injEq, Prod.mk.injEq] at h
  obtain ⟨rfl, hname⟩ := h
  have hcomps := (List.dropLast_append_getLast? last hlast).symm
  have hlast_ne : last ≠ [] := by
    have hmem := List.mem_of_getLast? hlast
    simpa [Path.components] using (List.mem_filter.mp hmem).2
  split at hname
  · simp at hname
  · rename_i hdots
    simp only [Option.some.injEq] at hname
    subst hname
    simp only [Bool.or_eq_true, decide_eq_true_eq, not_or] at hdots
    exact ⟨hp, Nat.le_of_not_lt hlong, ⟨hlast_ne, hdots.1, hdots.2⟩, hcomps, hwalk, hkind⟩

-- The place for a new entry is the target of its path.
theorem slot_target {tree : FileTree} {p name : Text} {parent : Location}
    (h : tree.slot p = .ok (parent, some name)) :
    Path.target tree.start p = parent ++ [name] ∧
      Path.trail tree.start p =
        passed (Path.origin tree.start p) (Path.components p).dropLast ++ [parent ++ [name]] ∧
      ∀ other ∈ passed (Path.origin tree.start p) (Path.components p).dropLast,
        tree.kind? other = some .directory := by
  obtain ⟨-, -, hname, hcomps, hwalk, hkind⟩ := slot_ok h
  have hparent := (walk_ok hwalk).1
  refine ⟨?_, ?_, kind?_of_walk hwalk hkind⟩
  · rw [Path.target, hcomps, follow_append, ← hparent, follow_proper hname]
  · calc Path.trail tree.start p
        = passed (Path.origin tree.start p) ((Path.components p).dropLast ++ [name]) := by
          rw [Path.trail, ← hcomps]
      _ = passed (Path.origin tree.start p) (Path.components p).dropLast ++
            [parent ++ [name]] := by
          rw [passed_append, ← hparent, passed_proper hname]

/-! ## 3. Opening files -/

-- What opening a file finds and does.
theorem openFile_inv {tree made : FileTree} {p : Text} {place : Location} {anew : Bool}
    (h : tree.openFile p anew = .ok (place, made)) :
    Path.check p = .ok () ∧ ∃ parent name, tree.slot p = .ok (parent, some name) ∧
      place = parent ++ [name] ∧ Path.endsWithSlash p = false ∧
      Path.octetCount name ≤ nameLimit ∧ tree.kind? place ≠ some .directory ∧
      (made = tree.set place (.file []) ∨
        anew = false ∧ made = tree ∧ tree.kind? place = some .file) := by
  unfold openFile at h
  split at h
  · simp at h
  rename_i hcheck
  refine ⟨hcheck, ?_⟩
  split at h
  · simp [refuse] at h
  · simp [refuse] at h
  rename_i parent name hslot
  split at h
  · simp [refuse] at h
  rename_i hslash
  split at h
  · simp [refuse] at h
  rename_i hshort
  simp only at h
  refine ⟨parent, name, hslot, ?_⟩
  have hends : Path.endsWithSlash p = false ∧ Path.octetCount name ≤ nameLimit :=
    ⟨by simpa using hslash, Nat.not_lt.mp hshort⟩
  split at h
  · simp [refuse] at h
  · rename_i old hget
    obtain ⟨rfl, rfl⟩ := Prod.mk.inj (Except.ok.inj h)
    have hkind : tree.kind? (parent ++ [name]) = some .file := by simp [kind?, hget, Entry.kind]
    refine ⟨rfl, hends.1, hends.2, by simp [hkind], ?_⟩
    cases anew with
    | true => exact .inl rfl
    | false => exact .inr ⟨rfl, rfl, hkind⟩
  · rename_i hget
    obtain ⟨rfl, rfl⟩ := Prod.mk.inj (Except.ok.inj h)
    exact ⟨rfl, hends.1, hends.2, by simp [kind?, hget], .inl rfl⟩

-- What opening a file for writing anew does, by the trail of its path.
theorem openFile_ok {tree made : FileTree} {p : Text} {place : Location}
    (h : tree.openFile p true = .ok (place, made)) :
    place = Path.target tree.start p ∧ place ∈ Path.trail tree.start p ∧
      made = tree.set place (.file []) ∧ tree.kind? place ≠ some .directory ∧
      ∀ other ∈ Path.trail tree.start p, other ≠ place → tree.kind? other = some .directory := by
  obtain ⟨-, parent, name, hslot, rfl, -, -, hkind, hmade⟩ := openFile_inv h
  obtain ⟨htarget, htrail, hdirs⟩ := slot_target hslot
  refine ⟨htarget.symm, by simp [htrail], by simpa using hmade, hkind, ?_⟩
  intro other hother hne
  rw [htrail, List.mem_append, List.mem_singleton] at hother
  exact hdirs other (hother.resolve_right hne)

-- A file that was opened is there.
theorem get?_of_openFile {tree made : FileTree} {p : Text} {place : Location} {anew : Bool}
    (h : tree.openFile p anew = .ok (place, made)) :
    ∃ content, made.get? place = some (.file content) := by
  obtain ⟨-, parent, name, -, rfl, -, -, -, hmade⟩ := openFile_inv h
  rcases hmade with rfl | ⟨-, rfl, hfile⟩
  · exact ⟨[], by simp [get?_set]⟩
  · exact kind?_eq_file.mp hfile

-- Opening a file is refused, if it fails, unless the path names no place.
theorem check_of_openFile_refused {tree : FileTree} {p : Text} {refusal : Refusal} {anew : Bool}
    (h : tree.openFile p anew = .error (.refused refusal)) : Path.check p = .ok () := by
  unfold openFile at h
  split at h
  · simp at h
  · rename_i hcheck
    exact hcheck

theorem check_of_openFile_path {tree : FileTree} {p : Text} {fault : Path.Fault} {anew : Bool}
    (h : tree.openFile p anew = .error (.path fault)) : Path.check p ≠ .ok () := by
  intro hcheck
  unfold openFile at h
  simp only [hcheck] at h
  repeat' split at h
  all_goals simp [refuse] at h

-- The components of a path that ends in none lead where all that stands between its slashes leads.
theorem splitOn_getLast? {p : Text} (hp : p ≠ []) (hslash : Path.endsWithSlash p = false) :
    (Text.splitOn Path.slash p).getLast? ≠ some [] := by
  induction p with
  | nil => exact absurd rfl hp
  | cons c rest ih =>
    have hlast (hrest : rest ≠ []) : Path.endsWithSlash rest = false := by
      rwa [Path.endsWithSlash, List.getLast?_cons_of_ne_nil hrest] at hslash
    rw [Text.splitOn]
    by_cases hc : c = Path.slash
    · have hrest : rest ≠ [] := by
        rintro rfl
        simp [Path.endsWithSlash, hc] at hslash
      rw [if_pos hc, List.getLast?_cons_of_ne_nil (Text.splitOn_ne_nil _ _)]
      exact ih hrest (hlast hrest)
    · rw [if_neg hc]
      cases hsplit : Text.splitOn Path.slash rest with
      | nil => simp
      | cons piece pieces =>
        by_cases hpieces : pieces = []
        · simp [hpieces]
        · have hrest : rest ≠ [] := by
            rintro rfl
            simp [Text.splitOn] at hsplit
            exact hpieces hsplit.2
          have hih := ih hrest (hlast hrest)
          rw [hsplit, List.getLast?_cons_of_ne_nil hpieces] at hih
          simpa [List.getLast?_cons_of_ne_nil hpieces] using hih

-- A path whose file was opened leads to it wherever the directories on its trail are.
theorem locate_of_openFile {tree made other : FileTree} {p : Text} {place : Location}
    (h : tree.openFile p true = .ok (place, made)) (hstart : other.start = tree.start)
    (hdirs : ∀ loc ∈ Path.trail tree.start p, loc ≠ place → other.kind? loc = some .directory)
    (hfile : other.kind? place = some .file) : other.locate p = .ok place := by
  obtain ⟨-, parent, name, hslot, rfl, hslash, hshort, hnew, -⟩ := openFile_inv h
  obtain ⟨hp, hlong, hname, hcomps, hwalk, hkind⟩ := slot_ok hslot
  obtain ⟨htarget, htrail, htree⟩ := slot_target hslot
  -- On the way to the file both trees hold the same directories.
  have hsame : ∀ loc ∈ passed (Path.origin tree.start p) (Path.components p).dropLast,
      other.kind? loc = tree.kind? loc := by
    intro loc hloc
    rw [htree loc hloc]
    apply hdirs loc
    · rw [htrail]
      exact List.mem_append_left _ hloc
    · rintro rfl
      exact hnew (htree _ hloc)
  have hwalk' : other.walk (Path.origin tree.start p) (Path.components p).dropLast = .ok parent := by
    rw [walk_congr hsame, hwalk]
  have hcomps' : other.walk (Path.origin tree.start p) (Path.components p) =
      other.walk parent [name] := by
    rw [hcomps]
    apply walk_append hwalk'
    intro loc hloc
    rw [hsame loc hloc, htree loc hloc]
  have hlast : other.walk parent [name] = .ok (parent ++ [name]) := by
    obtain ⟨content, hget⟩ := kind?_eq_file.mp hfile
    simp [walk, hname.1, hname.2.1, hname.2.2, Nat.not_lt.mpr hshort, hget]
  rw [locate, if_neg hp, if_neg (Nat.not_lt.mpr hlong), reach_eq_walk, startOf, hstart,
    ← walk_filter _ _ (splitOn_getLast? hp hslash)]
  exact hcomps'.trans hlast

-- If a path led nowhere before its file was opened, nothing was at its place.
theorem get?_of_openFile_new {tree made : FileTree} {p : Text} {place : Location}
    (h : tree.openFile p true = .ok (place, made)) (hnew : tree.pathExists p = false) :
    tree.get? place = none := by
  obtain ⟨-, -, -, hkind, hdirs⟩ := openFile_ok h
  cases hfound : tree.kind? place with
  | none => exact kind?_eq_none.mp hfound
  | some kind =>
    have hfile : tree.kind? place = some .file := by
      cases kind with
      | directory => exact absurd hfound hkind
      | file => exact hfound
    have hthere := pathExists_of_locate (openFile_inv h).1 (locate_of_openFile h rfl hdirs hfile)
    rw [hnew] at hthere
    exact absurd hthere (by simp)

/-! ## 4. Making directories -/

/-- A tree that holds what another one holds and, at some of the given places, directories where
nothing was. -/
structure Grown (places : List Location) (tree made : FileTree) : Prop where
  start_eq : made.start = tree.start
  get?_eq : ∀ loc, made.get? loc = tree.get? loc ∨
    (loc ∈ places ∧ tree.get? loc = none ∧ made.get? loc = some .directory)

namespace Grown

variable {places others : List Location} {tree made final : FileTree}

theorem refl (places : List Location) (tree : FileTree) : Grown places tree tree :=
  ⟨rfl, fun _ => .inl rfl⟩

theorem mono (h : Grown places tree made) (hsub : places ⊆ others) : Grown others tree made := by
  refine ⟨h.start_eq, fun loc => ?_⟩
  rcases h.get?_eq loc with hsame | ⟨hloc, hnew⟩
  · exact .inl hsame
  · exact .inr ⟨hsub hloc, hnew⟩

theorem trans (h : Grown places tree made) (h' : Grown places made final) :
    Grown places tree final := by
  refine ⟨h'.start_eq.trans h.start_eq, fun loc => ?_⟩
  rcases h.get?_eq loc with hsame | ⟨hloc, hnew, hdir⟩
  · rw [← hsame]
    exact h'.get?_eq loc
  · rcases h'.get?_eq loc with hsame' | ⟨-, hnew', -⟩
    · exact .inr ⟨hloc, hnew, hsame'.trans hdir⟩
    · rw [hdir] at hnew'
      exact absurd hnew' (by simp)

-- What was there stays.
theorem get?_of_some (h : Grown places tree made) {loc : Location} {entry : Entry}
    (hentry : tree.get? loc = some entry) : made.get? loc = some entry := by
  rcases h.get?_eq loc with hsame | ⟨-, hnew, -⟩
  · exact hsame.trans hentry
  · rw [hentry] at hnew
    exact absurd hnew (by simp)

theorem kind?_of_not_mem (h : Grown places tree made) {loc : Location} (hloc : loc ∉ places) :
    made.kind? loc = tree.kind? loc := by
  rcases h.get?_eq loc with hsame | ⟨hmem, -⟩
  · simp only [kind?, hsame]
  · exact absurd hmem hloc

end Grown

theorem makeDirectory_grown {tree made : FileTree} {p : Text}
    (h : tree.makeDirectory p = .ok made) : Grown (Path.trail tree.start p) tree made := by
  unfold makeDirectory at h
  split at h
  · simp at h
  split at h
  · simp [refuse] at h
  · simp [refuse] at h
  rename_i parent name hslot
  split at h
  · simp [refuse] at h
  simp only at h
  split at h
  · simp [refuse] at h
  rename_i hnew
  simp only [Except.ok.injEq] at h
  subst h
  have htrail := (slot_target hslot).2.1
  refine ⟨rfl, fun loc => ?_⟩
  rw [get?_set]
  by_cases hroot : loc = []
  · exact .inl (by simp [hroot, get?])
  rw [if_neg hroot]
  by_cases hloc : parent ++ [name] = loc
  · subst hloc
    exact .inr ⟨by simp [htrail], hnew, by simp⟩
  · exact .inl (by simp [hloc])

theorem ensureDirectory_grown (tree : FileTree) (p : Text) :
    Grown (Path.trail tree.start p) tree (tree.ensureDirectory p).2 := by
  unfold ensureDirectory
  split
  · rename_i made hmade
    exact makeDirectory_grown hmade
  · exact Grown.refl _ _
  · split <;> exact Grown.refl _ _

-- The directory that a path is in is on the way of the path.
theorem trail_splitLast_subset (start : Location) (p : Text) :
    Path.trail start (splitLast p).1 ⊆ Path.trail start p := by
  unfold splitLast
  split
  · exact List.Subset.trans (Path.trail_directory_subset start _)
      (Path.trail_directory_subset start p)
  · exact Path.trail_directory_subset start p

theorem ensureDirectories_grown (tree : FileTree) (p : Text) (fuel : Nat) :
    Grown (Path.trail tree.start p) tree (tree.ensureDirectories p fuel).2 := by
  induction fuel generalizing p with
  | zero => exact Grown.refl _ _
  | succ fuel ih =>
    have hparent := (ih (splitLast p).1).mono (trail_splitLast_subset tree.start p)
    have hthen {made : FileTree} (h : Grown (Path.trail tree.start p) tree made) :
        Grown (Path.trail tree.start p) tree (made.ensureDirectory p).2 := by
      have hlast := ensureDirectory_grown made p
      rw [h.start_eq] at hlast
      exact h.trans hlast
    rw [ensureDirectories]
    simp only
    split
    · split
      all_goals
        rename_i made hmade
        rw [hmade] at hparent
      · split
        · exact hparent
        · exact hthen hparent
      · split
        · exact hparent
        · exact hthen hparent
      · exact hparent
    · exact ensureDirectory_grown tree p

-- Making directories adds directories on the trail of their path and changes nothing that was
-- there, whether it succeeds or fails.
theorem makeDirectories_grown (tree : FileTree) (p : Text) :
    Grown (Path.trail tree.start p) tree (tree.makeDirectories p).2 :=
  ensureDirectories_grown tree p _

/-! ## 5. Writing and removing at a location -/

def overlaid (octets old : Bytes) : Bytes := octets ++ old.drop octets.length

def Entry.overlaid (octets : Bytes) : Entry → Entry
  | .directory => .directory
  | .file old => .file (FileTree.overlaid octets old)

theorem Entry.kind_overlaid (octets : Bytes) (entry : Entry) :
    (entry.overlaid octets).kind = entry.kind := by
  cases entry <;> rfl

theorem start_overwriteStart (tree : FileTree) (place : Location) (octets : Bytes) :
    (tree.overwriteStart place octets).start = tree.start := by
  unfold overwriteStart
  split <;> rfl

theorem get?_overwriteStart (tree : FileTree) (place loc : Location) (octets : Bytes) :
    (tree.overwriteStart place octets).get? loc =
      if place = loc then (tree.get? loc).map (Entry.overlaid octets) else tree.get? loc := by
  unfold overwriteStart
  cases hget : tree.get? place with
  | none =>
    by_cases hloc : place = loc
    · simp [← hloc, hget]
    · simp [hloc]
  | some entry =>
    cases entry with
    | directory =>
      by_cases hloc : place = loc
      · simp [← hloc, hget, Entry.overlaid]
      · simp [hloc]
    | file old =>
      have hroot : place ≠ [] := by
        rintro rfl
        simp [get?] at hget
      by_cases hloc : place = loc
      · subst hloc
        simp [get?_set, hroot, hget, Entry.overlaid, FileTree.overlaid]
      · rw [if_neg hloc]
        exact get?_set_of_ne hloc _ _

theorem kind?_overwriteStart (tree : FileTree) (place loc : Location) (octets : Bytes) :
    (tree.overwriteStart place octets).kind? loc = tree.kind? loc := by
  rw [kind?, get?_overwriteStart, kind?]
  split
  · simp [Option.map_map, Function.comp_def, Entry.kind_overlaid]
  · rfl

theorem start_append (tree : FileTree) (place : Location) (octets : Bytes) :
    (tree.append place octets).start = tree.start := by
  unfold append
  split <;> rfl

theorem get?_append_of_ne (tree : FileTree) {place loc : Location} (h : place ≠ loc)
    (octets : Bytes) : (tree.append place octets).get? loc = tree.get? loc := by
  unfold append
  split
  · exact get?_set_of_ne h _ _
  · rfl

theorem kind?_append (tree : FileTree) (place loc : Location) (octets : Bytes) :
    (tree.append place octets).kind? loc = tree.kind? loc := by
  by_cases hloc : place = loc
  · subst hloc
    unfold append
    split
    · rename_i old hget
      have hroot : place ≠ [] := by
        rintro rfl
        simp [get?] at hget
      simp [kind?, get?_set, hroot, hget, Entry.kind]
    · rfl
  · simp only [kind?, get?_append_of_ne tree hloc]

-- Removing what a path names takes away the file at its target.
theorem removeFile_ok {tree after : FileTree} {p : Text} (h : tree.removeFile p = .ok after) :
    tree.kind? (Path.target tree.start p) = some .file ∧
      after = tree.erase (Path.target tree.start p) := by
  unfold removeFile at h
  split at h
  · simp at h
  split at h
  · simp [refuse] at h
  rename_i place hlocate
  rw [← (locate_ok hlocate).1]
  split at h
  · rename_i content hget
    exact ⟨kind?_eq_file.mpr ⟨content, hget⟩, (Except.ok.inj h).symm⟩
  · simp [refuse] at h
  · simp [refuse] at h

theorem removeFile_of_locate {tree : FileTree} {p : Text} {place : Location}
    (hcheck : Path.check p = .ok ()) (hlocate : tree.locate p = .ok place)
    (hfile : tree.kind? place = some .file) : tree.removeFile p = .ok (tree.erase place) := by
  obtain ⟨content, hget⟩ := kind?_eq_file.mp hfile
  simp only [removeFile, hcheck, hlocate, hget]

-- Removing is refused, if it fails, unless the path names no place.
theorem check_of_removeFile_path {tree : FileTree} {p : Text} {fault : Path.Fault}
    (h : tree.removeFile p = .error (.path fault)) : Path.check p ≠ .ok () := by
  intro hcheck
  unfold removeFile at h
  simp only [hcheck] at h
  repeat' split at h
  all_goals simp [refuse] at h

-- Taking away a file takes away nothing else.
theorem kind?_erase {tree : FileTree} {place : Location} (hfile : tree.kind? place = some .file)
    (loc : Location) :
    (tree.erase place).kind? loc = if place = loc then none else tree.kind? loc := by
  have hroot : place ≠ [] := by
    rintro rfl
    simp [kind?_root] at hfile
  by_cases hloc : place = loc
  · subst hloc
    simp [kind?, get?_erase, hroot]
  · rw [if_neg hloc, kind?, kind?, get?_erase_of_ne hloc]

/-! ## 6. Trees that keep what they hold -/

/-- A tree that still holds, in kind, all that another one held. -/
structure Kept (tree after : FileTree) : Prop where
  start_eq : after.start = tree.start
  kind?_eq : ∀ loc, tree.kind? loc ≠ none → after.kind? loc = tree.kind? loc

namespace Kept

variable {tree between after : FileTree}

theorem refl (tree : FileTree) : Kept tree tree := ⟨rfl, fun _ _ => rfl⟩

theorem trans (h : Kept tree between) (h' : Kept between after) : Kept tree after := by
  refine ⟨h'.start_eq.trans h.start_eq, fun loc hloc => ?_⟩
  have hsame := h.kind?_eq loc hloc
  rw [← hsame] at hloc ⊢
  exact h'.kind?_eq loc hloc

theorem of_kinds (hstart : after.start = tree.start)
    (h : ∀ loc, after.kind? loc = tree.kind? loc) : Kept tree after :=
  ⟨hstart, fun loc _ => h loc⟩

theorem rooted (h : Kept tree after) (hroot : tree.Rooted) : after.Rooted := by
  intro loc hloc
  have hdir := hroot loc (h.start_eq ▸ hloc)
  rw [h.kind?_eq loc (by simp [hdir]), hdir]

-- What a path leads to it keeps leading to.
theorem locate (h : Kept tree after) {p : Text} {found : Location}
    (hfound : tree.locate p = .ok found) : after.locate p = .ok found := by
  rw [← hfound]
  apply locate_congr h.start_eq
  intro loc hloc
  exact h.kind?_eq loc ((locate_ok hfound).2 loc hloc)

end Kept

theorem Grown.kept {places : List Location} {tree made : FileTree} (h : Grown places tree made) :
    Kept tree made := by
  refine ⟨h.start_eq, fun loc hloc => ?_⟩
  rcases h.get?_eq loc with hsame | ⟨-, hnew, -⟩
  · simp only [kind?, hsame]
  · exact absurd (kind?_eq_none.mpr hnew) hloc

theorem kept_openFile {tree made : FileTree} {p : Text} {place : Location}
    (h : tree.openFile p true = .ok (place, made)) : Kept tree made := by
  obtain ⟨-, hmem, rfl, hkind, -⟩ := openFile_ok h
  refine ⟨rfl, fun loc hloc => ?_⟩
  have hroot : place ≠ [] := Path.ne_nil_of_mem_trail hmem
  by_cases hplace : place = loc
  · subst hplace
    have hfile : tree.kind? place = some .file := by
      cases hfound : tree.kind? place with
      | none => exact absurd hfound hloc
      | some kind =>
        cases kind with
        | directory => exact absurd hfound hkind
        | file => rfl
    rw [hfile]
    simp [kind?, get?_set, hroot, Entry.kind]
  · rw [kind?, kind?, get?_set_of_ne hplace]

/-! ## 7. Reading files -/

-- A path that leads to a location reads the file there.
theorem read_iff {tree : FileTree} {p : Text} {loc : Location} {content : Bytes}
    (hcheck : Path.check p = .ok ()) (hlocate : tree.locate p = .ok loc) :
    tree.read p = .ok content ↔ tree.get? loc = some (.file content) := by
  rw [read, hcheck]
  simp only [hlocate]
  rcases hget : tree.get? loc with _ | (_ | found)
  · simp [refuse]
  · simp [refuse]
  · simp

-- What is written to a file that was opened anew is all that it holds.
theorem read_of_openFile {tree made : FileTree} {p : Text} {place : Location}
    (h : tree.openFile p true = .ok (place, made)) (octets : Bytes) :
    (made.overwriteStart place octets).locate p = .ok place ∧
      (made.overwriteStart place octets).read p = .ok octets := by
  obtain ⟨-, hmem, hmade, -, hdirs⟩ := openFile_ok h
  have hroot : place ≠ [] := Path.ne_nil_of_mem_trail hmem
  have hempty : made.get? place = some (.file []) := by
    rw [hmade, get?_set, if_neg hroot, if_pos rfl]
  have hget : (made.overwriteStart place octets).get? place = some (.file octets) := by
    rw [get?_overwriteStart, if_pos rfl, hempty, Option.map_some, Entry.overlaid, overlaid]
    simp
  have hstart : (made.overwriteStart place octets).start = tree.start := by
    rw [start_overwriteStart, hmade]
    rfl
  have hlocate : (made.overwriteStart place octets).locate p = .ok place := by
    refine locate_of_openFile h hstart (fun loc hloc hne => ?_) (kind?_eq_file.mpr ⟨_, hget⟩)
    have hdir := hdirs loc hloc hne
    rw [kind?_overwriteStart, (kept_openFile h).kind?_eq loc (by simp [hdir]), hdir]
  exact ⟨hlocate, (read_iff (openFile_inv h).1 hlocate).mpr hget⟩

theorem read_nil (tree : FileTree) : tree.read [] = refuse [] .noEntry := by
  have hcheck : Path.check [] = .ok () := rfl
  rw [read, hcheck]
  rfl

theorem check_of_read {tree : FileTree} {p : Text} {octets : Bytes} (h : tree.read p = .ok octets) :
    Path.check p = .ok () := by
  rw [read] at h
  cases hcheck : Path.check p with
  | error cause => simp [hcheck] at h
  | ok u => rfl

-- Reading a path is refused, if it fails, unless the path names no place.
theorem read_error {tree : FileTree} {p : Text} {fault : Fault} (h : tree.read p = .error fault) :
    (∃ refusal, fault = .refused refusal ∧ Path.check p = .ok ()) ∨
      ∃ cause, fault = .path cause ∧ Path.check p ≠ .ok () := by
  rw [read] at h
  cases hcheck : Path.check p with
  | error cause =>
    rw [hcheck] at h
    exact .inr ⟨cause, (Except.error.inj h).symm, by simp⟩
  | ok u =>
    left
    simp only [hcheck, refuse] at h
    split at h
    · exact ⟨_, (Except.error.inj h).symm, rfl⟩
    split at h
    · simp at h
    · exact ⟨_, (Except.error.inj h).symm, rfl⟩
    · exact ⟨_, (Except.error.inj h).symm, rfl⟩

end StateOwnership.FileTree
