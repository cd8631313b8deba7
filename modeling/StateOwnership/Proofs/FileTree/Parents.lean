import StateOwnership.Proofs.FileTree.Targets
import StateOwnership.Proofs.Text.Utf8

/-!
# The directories that paths are in

**A path consists of slashes, or it is a single name, or it goes one component further than the path of
the directory that it is in.** That path starts at the same place, is shorter, and can name a place if
the path can.
-/

namespace StateOwnership

/-! ## 1. Octets and checks -/

namespace Path

/-- A code point that can occur in the name of an entry. -/
def nameable (c : CodePoint) : Bool :=
  !(c.isSurrogate && !(0xDC80 ≤ c.val && c.val ≤ 0xDCFF)) && c != 0

theorem check_eq_ok {p : Text} : check p = .ok () ↔ ∀ c ∈ p, nameable c = true := by
  simp only [nameable, Bool.and_eq_true, Bool.not_eq_true', bne_iff_ne, forall_and, check]
  rw [← Text.surrogateFaultFrom_eq_none 0]
  cases hfault : Text.surrogateFaultFrom (fun c => 0xDC80 ≤ c.val && c.val ≤ 0xDCFF) 0 p with
  | some fault => simp
  | none =>
    have hzero : 0 ∈ p ↔ ¬ ∀ c ∈ p, c ≠ 0 := by simp
    by_cases hmem : (0 : CodePoint) ∈ p
    · simp [hmem, hzero.mp hmem]
    · simp only [List.contains_iff_mem, hmem, if_false, true_and]
      exact ⟨fun _ c hc => ne_of_mem_of_not_mem hc hmem, fun _ => trivial⟩

theorem check_of_subset {p q : Text} (h : check q = .ok ())
    (hsub : ∀ c ∈ p, c ∈ q ∨ c = slash ∨ c ∈ here) : check p = .ok () := by
  have hhere : here = [0x2E] := by decide
  rw [check_eq_ok] at h ⊢
  intro c hc
  rcases hsub c hc with hq | rfl | hdot
  · exact h c hq
  · decide
  · rw [hhere, List.mem_singleton] at hdot
    rw [hdot]
    decide

theorem octetCount_append (a b : Text) : octetCount (a ++ b) = octetCount a + octetCount b := by
  have hfold (count : Nat) (t : Text) : t.foldl (fun count c =>
      count + if 0xDC80 ≤ c.val ∧ c.val ≤ 0xDCFF then 1 else (Text.utf8Octets c).length) count =
      count + octetCount t := by
    unfold octetCount
    induction t generalizing count with
    | nil => rfl
    | cons c rest ih =>
      rw [List.foldl_cons, List.foldl_cons, ih, ih (0 + _)]
      omega
  rw [octetCount, List.foldl_append, hfold]
  rfl

theorem octetCount_le_join {b : Text} (h : isAbsolute b = false) (a : Text) :
    octetCount a ≤ octetCount (join a b) := by
  rw [join, h, if_neg (by simp)]
  split
  · rw [octetCount_append]
    exact Nat.le_add_right _ _
  · rw [octetCount_append]
    exact Nat.le_add_right _ _

/-! ## 2. Directory parts -/

theorem components_of_no_slash {name : Text} (hname : name ≠ []) (h : slash ∉ name) :
    components name = [name] := by
  simp [components, Text.splitOn_of_not_mem h, hname]

theorem components_slashes_append {run : Text} (h : ∀ c ∈ run, c = slash) (t : Text) :
    components (run ++ t) = components t := by
  induction run with
  | nil => rfl
  | cons c rest ih =>
    rw [h c List.mem_cons_self, List.cons_append, ← List.nil_append (slash :: (rest ++ t)),
      components_append_slash, ih fun d hd => h d (List.mem_cons_of_mem _ hd)]
    rfl

theorem components_append_slashes {run : Text} (h : ∀ c ∈ run, c = slash) (t : Text) :
    components (t ++ run) = components t := by
  cases run with
  | nil => rw [List.append_nil]
  | cons c rest =>
    rw [h c List.mem_cons_self, components_append_slash,
      components_of_slashes fun d hd => h d (List.mem_cons_of_mem _ hd), List.append_nil]

-- A path with a file name is that name, or its directory part stands in front of it.
theorem directory_of_fileName (p : Text) :
    (directory p = [] ∧ p = fileName p) ∨
      ∃ a run, p = a ++ slash :: (run ++ fileName p) ∧ (∀ c ∈ run, c = slash) ∧
        directory p ≠ [] ∧
        (directory p = a ∨ directory p = a ++ [slash] ∧ ∀ c ∈ a, c = slash) := by
  have hwhole := upToFileName_append_fileName p
  by_cases hnone : upToFileName p = []
  · left
    rw [hnone, List.nil_append] at hwhole
    exact ⟨by simp [directory, hnone], hwhole.symm⟩
  obtain ⟨init, hinit⟩ := upToFileName_eq_concat hnone
  right
  by_cases hall : (upToFileName p).all (· == slash)
  · have hdir : directory p = init ++ [slash] := by rw [directory, if_pos hall, hinit]
    refine ⟨init, [], ?_, by simp, by simp [hdir], .inr ⟨hdir, fun c hc => ?_⟩⟩
    · rw [List.nil_append, List.append_cons, ← hinit, hwhole]
    · rw [hinit, List.all_append, Bool.and_eq_true, List.all_eq_true] at hall
      simpa using hall.1 c hc
  · have hdir : directory p = Text.stripRight slash (upToFileName p) := by
      simp only [directory, if_neg hall]
    obtain ⟨run, hrun, hslashes⟩ := stripRight_concat_slash init
    rw [← hinit, ← hdir] at hrun
    refine ⟨directory p, run, ?_, hslashes, ?_, .inl rfl⟩
    · rw [← List.cons_append, ← List.append_assoc, ← hrun, hwhole]
    · intro hnil
      rw [hnil, List.nil_append] at hrun
      apply hall
      rw [hrun, List.all_eq_true]
      intro c hc
      rcases List.mem_cons.mp hc with rfl | hc
      · simp
      · simp [hslashes c hc]

-- Where the slashes at its end are stripped a path has a file name.
theorem fileName_stripRight {t : Text} (h : Text.stripRight slash t ≠ []) :
    fileName (Text.stripRight slash t) ≠ [] := by
  have hdrop : t.reverse.dropWhile (· == slash) ≠ [] := by
    simpa [Text.stripRight] using h
  have hhead := List.head_dropWhile_not (· == slash) (l := t.reverse) hdrop
  rw [fileName, Text.stripRight, List.reverse_reverse]
  cases hcases : t.reverse.dropWhile (· == slash) with
  | nil => exact absurd hcases hdrop
  | cons c rest =>
    simp only [hcases, List.head_cons] at hhead
    rw [List.takeWhile_cons_of_pos (by simpa using hhead)]
    simp

/-- A path that goes one component further than the path of the directory that it is in. -/
structure Inside (p parent name : Text) : Prop where
  parent_ne : parent ≠ []
  components_eq : components p = components parent ++ [name]
  extends_parent : ∃ rest, p = parent ++ rest
  length_lt : parent.length < p.length
  subset : ∀ c ∈ p, c ∈ parent ∨ c = slash ∨ c ∈ name
  here_mem : here ∈ (Text.splitOn slash parent).tail → here ∈ (Text.splitOn slash p).tail
  name_mem : name ∈ (Text.splitOn slash p).tail

namespace Inside

variable {p parent name : Text}

theorem origin_eq (h : Inside p parent name) (start : Location) :
    origin start p = origin start parent := by
  obtain ⟨rest, rfl⟩ := h.extends_parent
  exact origin_append h.parent_ne start rest

theorem octetCount_le (h : Inside p parent name) : octetCount parent ≤ octetCount p := by
  obtain ⟨rest, rfl⟩ := h.extends_parent
  rw [octetCount_append]
  exact Nat.le_add_right _ _

theorem check_parent (h : Inside p parent name) (hcheck : check p = .ok ()) :
    check parent = .ok () := by
  obtain ⟨rest, rfl⟩ := h.extends_parent
  exact check_of_subset hcheck fun c hc => .inl (List.mem_append_left _ hc)

theorem trail_subset (h : Inside p parent name) (start : Location) :
    trail start parent ⊆ trail start p := by
  rw [trail, trail, h.origin_eq, h.components_eq, FileTree.passed_append]
  exact List.subset_append_left _ _

end Inside

theorem inside_of_parts {a b parent name : Text} (hcomponents : components b = [name])
    (hchars : ∀ c ∈ b, c = slash ∨ c ∈ name) (hne : parent ≠ [])
    (hparent : parent = a ∨ parent = a ++ [slash] ∧ ∀ c ∈ a, c = slash) :
    Inside (a ++ slash :: b) parent name := by
  have hsplit : (Text.splitOn slash (a ++ slash :: b)).tail =
      (Text.splitOn slash a).tail ++ Text.splitOn slash b := by
    rw [Text.splitOn_append, List.tail_append_of_ne_nil (Text.splitOn_ne_nil _ _)]
  have hname : name ∈ Text.splitOn slash b := by
    have hmem : name ∈ components b := by simp [hcomponents]
    exact (List.mem_filter.mp hmem).1
  have hmem : ∀ c ∈ a ++ slash :: b, c ∈ a ∨ c = slash ∨ c ∈ name := by
    intro c hc
    rcases List.mem_append.mp hc with hc | hc
    · exact .inl hc
    · rcases List.mem_cons.mp hc with rfl | hc
      · exact .inr (.inl rfl)
      · exact .inr (hchars c hc)
  rcases hparent with rfl | ⟨rfl, hslashes⟩
  · refine ⟨hne, ?_, ⟨slash :: b, rfl⟩, by simp, hmem, ?_, ?_⟩
    · rw [components_append_slash, hcomponents]
    · rw [hsplit]
      exact List.mem_append_left _
    · rw [hsplit]
      exact List.mem_append_right _ hname
  · have hb : b ≠ [] := by
      rintro rfl
      simp [components, Text.splitOn] at hcomponents
    have hlength : 0 < b.length := List.length_pos_iff.mpr hb
    refine ⟨hne, ?_, ⟨b, by simp⟩, by simp; omega, fun c hc => ?_, fun hhere => ?_, ?_⟩
    · rw [components_append_slash, components_concat_slash, hcomponents]
    · exact (hmem c hc).imp_left (List.mem_append_left _)
    · -- All components of slashes are empty.
      have hempty : components (a ++ [slash]) = [] :=
        components_of_slashes fun c hc => by
          rcases List.mem_append.mp hc with hc | hc
          · exact hslashes c hc
          · exact List.mem_singleton.mp hc
      have hmem : here ∈ components (a ++ [slash]) :=
        List.mem_filter.mpr ⟨List.mem_of_mem_tail hhere, by decide⟩
      simp [hempty] at hmem
    · rw [hsplit]
      exact List.mem_append_right _ hname

-- A path with a file name and slashes behind it is that name, or it is in its directory part.
theorem inside_directory {t run : Text} (hname : fileName t ≠ []) (hrun : ∀ c ∈ run, c = slash) :
    (directory t = [] ∧ components (t ++ run) = [fileName t] ∧ isAbsolute (t ++ run) = false) ∨
      Inside (t ++ run) (directory t) (fileName t) := by
  have hnoSlash := fileName_no_slash t
  have hself : components (fileName t) = [fileName t] := components_of_no_slash hname hnoSlash
  rcases directory_of_fileName t with ⟨hdir, hwhole⟩ | ⟨a, before, hwhole, hbefore, hne, hparent⟩
  · left
    refine ⟨hdir, ?_, ?_⟩
    · rw [components_append_slashes hrun]
      rwa [← hwhole] at hself ⊢
    · rw [hwhole]
      cases hcases : fileName t with
      | nil => exact absurd hcases hname
      | cons c rest =>
        rw [hcases, List.mem_cons, not_or] at hnoSlash
        simpa [isAbsolute] using fun hc : c = slash => hnoSlash.1 hc.symm
  · right
    have hparts : t ++ run = a ++ slash :: (before ++ fileName t ++ run) :=
      calc t ++ run = a ++ slash :: (before ++ fileName t) ++ run := congrArg (· ++ run) hwhole
        _ = a ++ slash :: (before ++ fileName t ++ run) := by simp
    rw [hparts]
    refine inside_of_parts ?_ (fun c hc => ?_) hne hparent
    · rw [components_append_slashes hrun, components_slashes_append hbefore, hself]
    · rcases List.mem_append.mp hc with hc | hc
      · exact (List.mem_append.mp hc).imp (hbefore c) id
      · exact .inl (hrun c hc)

end Path

/-! ## 3. Splitting -/

namespace FileTree

-- A path consists of slashes, or it is a single name, or it is in the directory that it is split
-- from.
theorem splitLast_cases (p : Text) :
    ((splitLast p).2 = [] ∧ ∀ c ∈ p, c = Path.slash) ∨
      ((splitLast p).1 = [] ∧ (splitLast p).2 ≠ [] ∧ Path.components p = [(splitLast p).2] ∧
        Path.isAbsolute p = false) ∨
      ((splitLast p).2 ≠ [] ∧ Path.Inside p (splitLast p).1 (splitLast p).2) := by
  have hcases {t : Text} (run : Text) (hname : Path.fileName t ≠ [])
      (hrun : ∀ c ∈ run, c = Path.slash) :
      (Path.directory t = [] ∧ Path.fileName t ≠ [] ∧
        Path.components (t ++ run) = [Path.fileName t] ∧ Path.isAbsolute (t ++ run) = false) ∨
      (Path.fileName t ≠ [] ∧ Path.Inside (t ++ run) (Path.directory t) (Path.fileName t)) :=
    (Path.inside_directory hname hrun).imp (fun h => ⟨h.1, hname, h.2⟩) fun h => ⟨hname, h⟩
  unfold splitLast
  by_cases hname : Path.fileName p = []
  · simp only [if_pos hname]
    have hwhole := Path.upToFileName_append_fileName p
    rw [hname, List.append_nil] at hwhole
    by_cases hall : p.all (· == Path.slash)
    · left
      have hdir : Path.directory p = p := by rw [Path.directory, hwhole, if_pos hall]
      exact ⟨by rw [hdir, hname], fun c hc => by simpa using List.all_eq_true.mp hall c hc⟩
    · right
      -- The slashes at the end are stripped, and something else is left.
      have hdir : Path.directory p = Text.stripRight Path.slash p := by
        simp only [Path.directory, hwhole, if_neg hall]
      have hne : Path.upToFileName p ≠ [] := by
        rw [hwhole]
        rintro rfl
        simp at hall
      obtain ⟨init, hinit⟩ := Path.upToFileName_eq_concat hne
      obtain ⟨run, hrun, hslashes⟩ := Path.stripRight_concat_slash init
      rw [← hinit, hwhole, ← hdir] at hrun
      have hbehind : ∀ c ∈ Path.slash :: run, c = Path.slash := by simpa using hslashes
      have hinner : Path.directory p ≠ [] := by
        intro hnil
        rw [hnil, List.nil_append] at hrun
        apply hall
        rw [hrun, List.all_eq_true]
        exact fun c hc => by simp [hbehind c hc]
      have hfile : Path.fileName (Path.directory p) ≠ [] := by
        rw [hdir] at hinner ⊢
        exact Path.fileName_stripRight hinner
      have hinside := hcases _ hfile hbehind
      rwa [← hrun] at hinside
  · rw [if_neg hname]
    have hinside := hcases [] hname (by simp)
    rw [List.append_nil] at hinside
    exact .inr hinside

end FileTree
end StateOwnership
