import Mathlib.Data.List.TakeWhile
import StateOwnership.Proofs.FileTree.Walking

/-!
# Targets and trails of paths

The target of a path is the location that it leads to, and its trail is what it passes on the way.
Both depend on the path and on where relative paths start, and on nothing that a file tree holds.
**The directory part of a path passes nothing that the path does not pass.**
-/

namespace StateOwnership.Path

/-- Where a path starts, if relative paths start at `start`. -/
def origin (start : Location) (p : Text) : Location :=
  if isAbsolute p then [] else start

/-- The location that a path leads to. -/
def target (start : Location) (p : Text) : Location :=
  FileTree.follow (origin start p) (components p)

/-- The locations that a path leads down to on its way. -/
def trail (start : Location) (p : Text) : List Location :=
  FileTree.passed (origin start p) (components p)

theorem ne_nil_of_mem_trail {start loc : Location} {p : Text} (h : loc ∈ trail start p) :
    loc ≠ [] :=
  FileTree.ne_nil_of_mem_passed h

/-! ## 1. Components of joined paths -/

theorem components_append_slash (a b : Text) :
    components (a ++ slash :: b) = components a ++ components b := by
  simp [components, Text.splitOn_append]

theorem components_concat_slash (a : Text) : components (a ++ [slash]) = components a := by
  rw [components_append_slash, show components [] = [] from rfl, List.append_nil]

theorem components_of_slashes {p : Text} (h : ∀ c ∈ p, c = slash) : components p = [] := by
  induction p with
  | nil => rfl
  | cons c rest ih =>
    rw [h c (by simp), ← List.nil_append (slash :: rest), components_append_slash,
      ih fun d hd => h d (by simp [hd])]
    rfl

theorem isAbsolute_of_no_slash {name : Text} (h : slash ∉ name) : isAbsolute name = false := by
  cases name with
  | nil => rfl
  | cons c rest =>
    rw [List.mem_cons, not_or] at h
    simpa [isAbsolute] using fun hc => h.1 hc.symm

theorem join_ne_nil {a : Text} (ha : a ≠ []) (b : Text) : join a b ≠ [] := by
  unfold join
  split
  · rename_i habsolute
    rintro rfl
    simp [isAbsolute] at habsolute
  · split <;> simp [ha]

theorem isAbsolute_stripLeft (p : Text) : isAbsolute (Text.stripLeft slash p) = false := by
  have hhead := List.head?_dropWhile_not (· == slash) p
  rw [isAbsolute, Text.stripLeft]
  cases hfirst : (p.dropWhile (· == slash)).head? with
  | none => rfl
  | some c =>
    rw [hfirst] at hhead
    simpa using hhead

theorem origin_append {a : Text} (ha : a ≠ []) (start : Location) (b : Text) :
    origin start (a ++ b) = origin start a := by
  cases a with
  | nil => exact absurd rfl ha
  | cons c rest => rfl

theorem origin_join {b : Text} (h : isAbsolute b = false) (start : Location) (a : Text) :
    origin start (join a b) = origin start a := by
  rw [join, h, if_neg (by simp)]
  by_cases hnil : a = []
  · subst hnil
    rw [if_pos (by simp), List.nil_append, origin, origin, h]
    rfl
  · split
    · exact origin_append hnil start b
    · exact origin_append hnil start _

theorem components_join {b : Text} (h : isAbsolute b = false) (a : Text) :
    components (join a b) = components a ++ components b := by
  rw [join, h, if_neg (by simp)]
  by_cases hnil : a = []
  · rw [if_pos (by simp [hnil]), hnil]
    rfl
  by_cases hslash : endsWithSlash a
  · rw [if_pos (by simp [hslash])]
    obtain ⟨init, rfl⟩ : ∃ init, a = init ++ [slash] := by
      simpa [endsWithSlash, List.getLast?_eq_some_iff] using hslash
    rw [List.append_assoc, List.singleton_append, components_append_slash,
      components_concat_slash]
  · rw [if_neg (by simp [hnil, hslash]), components_append_slash]

theorem trail_subset_join {b : Text} (h : isAbsolute b = false) (start : Location) (a : Text) :
    trail start a ⊆ trail start (join a b) := by
  rw [trail, trail, origin_join h, components_join h, FileTree.passed_append]
  exact List.subset_append_left _ _

-- A file name in a directory leads through what the directory's path passes and to its target.
theorem trail_join {name : Text} (h : slash ∉ name) (start : Location) (a : Text) :
    trail start a ⊆ trail start (join a name) ∧
      ∀ loc ∈ trail start (join a name), loc ∈ trail start a ∨ loc = target start (join a name) := by
  have hrelative := isAbsolute_of_no_slash h
  have hcomponents := components_join hrelative a
  have htrail : trail start (join a name) = trail start a ++
      FileTree.passed (FileTree.follow (origin start a) (components a)) (components name) := by
    rw [trail, trail, origin_join hrelative, hcomponents, FileTree.passed_append]
  have htarget : target start (join a name) =
      FileTree.follow (FileTree.follow (origin start a) (components a)) (components name) := by
    rw [target, origin_join hrelative, hcomponents, FileTree.follow_append]
  refine ⟨trail_subset_join hrelative start a, fun loc hloc => ?_⟩
  rw [htrail, List.mem_append] at hloc
  refine hloc.imp_right fun hpassed => ?_
  rw [htarget]
  by_cases hname : name = []
  · simp [hname, components, Text.splitOn, FileTree.passed] at hpassed
  · have hself : components name = [name] := by
      simp [components, Text.splitOn_of_not_mem h, hname]
    rw [hself] at hpassed ⊢
    exact FileTree.eq_follow_of_mem_passed hpassed

-- All components of a path but its file name are those of the directory that it was joined to.
theorem dropLast_splitOn_join {name : Text} (h : slash ∉ name) (a : Text) :
    (Text.splitOn slash (join a name)).dropLast.filter (· ≠ []) = components a := by
  rw [join, isAbsolute_of_no_slash h, if_neg (by simp)]
  by_cases hnil : a = []
  · rw [if_pos (by simp [hnil]), hnil, List.nil_append, Text.splitOn_of_not_mem h]
    rfl
  by_cases hslash : endsWithSlash a
  · rw [if_pos (by simp [hslash])]
    obtain ⟨init, rfl⟩ : ∃ init, a = init ++ [slash] := by
      simpa [endsWithSlash, List.getLast?_eq_some_iff] using hslash
    rw [List.append_assoc, List.singleton_append, Text.splitOn_append,
      Text.splitOn_of_not_mem h, List.dropLast_concat, components_concat_slash]
    rfl
  · rw [if_neg (by simp [hnil, hslash]), Text.splitOn_append, Text.splitOn_of_not_mem h,
      List.dropLast_concat]
    rfl

/-! ## 2. Directory parts -/

theorem fileName_no_slash (p : Text) : slash ∉ fileName p := by
  intro hmem
  rw [fileName, List.mem_reverse] at hmem
  have hne := List.mem_takeWhile_imp hmem
  simp at hne

theorem upToFileName_append_fileName (p : Text) : upToFileName p ++ fileName p = p := by
  rw [upToFileName, fileName, ← List.reverse_append, List.takeWhile_append_dropWhile,
    List.reverse_reverse]

-- What stands up to the last slash ends with it.
theorem upToFileName_eq_concat {p : Text} (h : upToFileName p ≠ []) :
    ∃ init, upToFileName p = init ++ [slash] := by
  have hdrop : p.reverse.dropWhile (· != slash) ≠ [] := by
    simpa [upToFileName] using h
  have hhead := List.head_dropWhile_not (· != slash) (l := p.reverse) hdrop
  have hlast : (upToFileName p).getLast? = some slash := by
    rw [upToFileName, List.getLast?_reverse, List.head?_eq_some_head hdrop]
    simpa using hhead
  exact List.getLast?_eq_some_iff.mp hlast

-- A text that ends with a slash goes on with one where the slashes at its end are stripped.
theorem stripRight_concat_slash (init : Text) :
    ∃ run, init ++ [slash] = Text.stripRight slash (init ++ [slash]) ++ slash :: run ∧
      ∀ c ∈ run, c = slash := by
  refine ⟨init.reverse.takeWhile (· == slash), ?_, fun c hc => by
    simpa using List.mem_takeWhile_imp hc⟩
  have hstrip : Text.stripRight slash (init ++ [slash]) =
      (init.reverse.dropWhile (· == slash)).reverse := by
    simp [Text.stripRight]
  have hinit := List.takeWhile_append_dropWhile (p := (· == slash)) (l := init.reverse)
  -- A run of slashes reads the same from both ends.
  have hrun : init.reverse.takeWhile (· == slash) =
      List.replicate (init.reverse.takeWhile (· == slash)).length slash := by
    apply List.eq_replicate_of_mem
    intro c hc
    simpa using List.mem_takeWhile_imp hc
  calc init ++ [slash]
      = (init.reverse.takeWhile (· == slash) ++
          init.reverse.dropWhile (· == slash)).reverse ++ [slash] := by
        rw [hinit, List.reverse_reverse]
    _ = (init.reverse.dropWhile (· == slash)).reverse ++
          slash :: init.reverse.takeWhile (· == slash) := by
        rw [List.reverse_append, hrun, List.reverse_replicate, List.append_assoc,
          ← List.replicate_succ', List.replicate_succ]
    _ = _ := by rw [hstrip]

-- The directory part of a path consists of slashes, or the path goes on behind it with one.
theorem directory_cases (p : Text) :
    (∀ c ∈ directory p, c = slash) ∨ ∃ rest, p = directory p ++ slash :: rest := by
  by_cases hall : (upToFileName p).all (· == slash)
  · left
    intro c hc
    rw [directory, if_pos hall] at hc
    simpa using List.all_eq_true.mp hall c hc
  · right
    have hpart : upToFileName p ≠ [] := by
      rintro hnil
      simp [hnil] at hall
    have hdir : directory p = Text.stripRight slash (upToFileName p) := by
      simp only [directory, if_neg hall]
    obtain ⟨init, hinit⟩ := upToFileName_eq_concat hpart
    obtain ⟨run, hrun, -⟩ := stripRight_concat_slash init
    refine ⟨run ++ fileName p, ?_⟩
    rw [hdir, ← List.cons_append, ← List.append_assoc, hinit, ← hrun, ← hinit,
      upToFileName_append_fileName]

-- The directory part of a path passes nothing that the path does not pass.
theorem trail_directory_subset (start : Location) (p : Text) :
    trail start (directory p) ⊆ trail start p := by
  rcases directory_cases p with hslashes | ⟨rest, hrest⟩
  · rw [trail, components_of_slashes hslashes]
    exact List.nil_subset _
  · by_cases hnil : directory p = []
    · rw [hnil]
      exact List.nil_subset _
    · have horigin := origin_append hnil start (slash :: rest)
      have hcomps := components_append_slash (directory p) rest
      rw [← hrest] at horigin hcomps
      rw [trail, trail, horigin, hcomps, FileTree.passed_append]
      exact List.subset_append_left _ _

end StateOwnership.Path
