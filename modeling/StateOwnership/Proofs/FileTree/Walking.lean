import StateOwnership.FileTree.Operations

/-!
# Where paths lead

As long as every name on the way leads into a directory, the place that a path leads to can be read
off its text. **If a path leads anywhere in a file tree, it leads to its target, and all that it
passes on the way there are directories.** Walking looks at the kinds of entries only, so a path
leads to the same place in two trees that agree on the kinds of what it passes.
-/

namespace StateOwnership

/-! ## 1. Components -/

namespace Text

theorem splitOn_ne_nil (c : CodePoint) (t : Text) : splitOn c t ≠ [] := by
  cases t with
  | nil => simp [splitOn]
  | cons d rest =>
    unfold splitOn
    split
    · simp
    · split <;> simp

-- A text is split at each of its separators.
theorem splitOn_append (c : CodePoint) (a b : Text) :
    splitOn c (a ++ c :: b) = splitOn c a ++ splitOn c b := by
  induction a with
  | nil => simp [splitOn]
  | cons d rest ih =>
    rw [List.cons_append, splitOn, splitOn, ih]
    split
    · rw [List.cons_append]
    · cases hsplit : splitOn c rest with
      | nil => exact absurd hsplit (splitOn_ne_nil c rest)
      | cons piece pieces => rfl

theorem splitOn_of_not_mem {c : CodePoint} {t : Text} (h : c ∉ t) : splitOn c t = [t] := by
  induction t with
  | nil => rfl
  | cons d rest ih =>
    rw [List.mem_cons, not_or] at h
    rw [splitOn, if_neg (fun hd => h.1 hd.symm), ih h.2]

end Text

namespace FileTree

/-- The location that names lead to, as far as they lead through directories only. -/
def follow (place : Location) : List Text → Location
  | [] => place
  | name :: rest =>
    if name = [] || name = Path.here then follow place rest
    else if name = Path.up then follow place.dropLast rest
    else follow (place ++ [name]) rest

/-- The locations that names lead down to on the way, the last of them included. -/
def passed (place : Location) : List Text → List Location
  | [] => []
  | name :: rest =>
    if name = [] || name = Path.here then passed place rest
    else if name = Path.up then passed place.dropLast rest
    else (place ++ [name]) :: passed (place ++ [name]) rest

/-- A component that leads down to an entry. -/
def Proper (name : Text) : Prop := name ≠ [] ∧ name ≠ Path.here ∧ name ≠ Path.up

theorem follow_append (place : Location) (names others : List Text) :
    follow place (names ++ others) = follow (follow place names) others := by
  induction names generalizing place with
  | nil => rfl
  | cons name rest ih =>
    simp only [List.cons_append, follow]
    split
    · exact ih place
    · split
      · exact ih place.dropLast
      · exact ih (place ++ [name])

theorem passed_append (place : Location) (names others : List Text) :
    passed place (names ++ others) = passed place names ++ passed (follow place names) others := by
  induction names generalizing place with
  | nil => rfl
  | cons name rest ih =>
    simp only [List.cons_append, passed, follow]
    split
    · exact ih place
    · split
      · exact ih place.dropLast
      · rw [ih, List.cons_append]

theorem follow_proper {name : Text} (h : Proper name) (place : Location) :
    follow place [name] = place ++ [name] := by
  simp [follow, h.1, h.2.1, h.2.2]

theorem passed_proper {name : Text} (h : Proper name) (place : Location) :
    passed place [name] = [place ++ [name]] := by
  simp [passed, h.1, h.2.1, h.2.2]

theorem eq_follow_of_mem_passed {place other : Location} {name : Text}
    (h : other ∈ passed place [name]) : other = follow place [name] := by
  simp only [passed, follow] at h ⊢
  split
  · rename_i hstay
    simp [hstay] at h
  · rename_i hstay
    rw [if_neg hstay] at h
    split
    · rename_i hup
      simp [hup] at h
    · rename_i hup
      rw [if_neg hup] at h
      simpa using h

-- Empty components lead nowhere.
theorem follow_filter (place : Location) (names : List Text) :
    follow place (names.filter (· ≠ [])) = follow place names := by
  induction names generalizing place with
  | nil => rfl
  | cons name rest ih =>
    by_cases hname : name = []
    · simpa [hname, follow] using ih place
    · rw [List.filter_cons_of_pos (by simpa using hname)]
      simp only [follow, ih]

theorem passed_filter (place : Location) (names : List Text) :
    passed place (names.filter (· ≠ [])) = passed place names := by
  induction names generalizing place with
  | nil => rfl
  | cons name rest ih =>
    by_cases hname : name = []
    · simpa [hname, passed] using ih place
    · rw [List.filter_cons_of_pos (by simpa using hname)]
      simp only [passed, ih]

-- The root is not among what is passed.
theorem ne_nil_of_mem_passed {place other : Location} {names : List Text}
    (h : other ∈ passed place names) : other ≠ [] := by
  induction names generalizing place with
  | nil => simp [passed] at h
  | cons name rest ih =>
    simp only [passed] at h
    split at h
    · exact ih h
    · split at h
      · exact ih h
      · rcases List.mem_cons.mp h with rfl | h
        · simp
        · exact ih h

-- What lies on the way to where names lead is passed, or it lies on the way to the place that they
-- start from.
theorem mem_passed_of_prefix {place loc : Location} {names : List Text}
    (h : loc <+: follow place names) : loc ∈ passed place names ∨ loc <+: place := by
  induction names generalizing place with
  | nil => exact .inr h
  | cons name rest ih =>
    simp only [follow, passed] at h ⊢
    split
    · rename_i hstay
      rw [if_pos hstay] at h
      exact ih h
    · rename_i hstay
      rw [if_neg hstay] at h
      split
      · rename_i hup
        rw [if_pos hup] at h
        exact (ih h).imp_right fun hloc => hloc.trans (List.dropLast_prefix place)
      · rename_i hup
        rw [if_neg hup] at h
        rcases ih h with hloc | hloc
        · exact .inl (List.mem_cons_of_mem _ hloc)
        · rcases List.prefix_concat_iff.mp hloc with rfl | hloc
          · exact .inl (by simp)
          · exact .inr hloc

/-! ## 2. Kinds of entries -/

/-- What an entry is, whatever it holds. -/
inductive Kind where
  | directory
  | file
  deriving DecidableEq

def Entry.kind : Entry → Kind
  | .directory => .directory
  | .file _ => .file

def kind? (tree : FileTree) (place : Location) : Option Kind :=
  (tree.get? place).map Entry.kind

theorem kind?_eq_directory {tree : FileTree} {place : Location} :
    tree.kind? place = some .directory ↔ tree.get? place = some .directory := by
  unfold kind?
  cases hget : tree.get? place with
  | none => simp
  | some entry => cases entry <;> simp [Entry.kind]

theorem kind?_eq_file {tree : FileTree} {place : Location} :
    tree.kind? place = some .file ↔ ∃ content, tree.get? place = some (.file content) := by
  unfold kind?
  cases hget : tree.get? place with
  | none => simp
  | some entry => cases entry <;> simp [Entry.kind]

theorem kind?_eq_none {tree : FileTree} {place : Location} :
    tree.kind? place = none ↔ tree.get? place = none := by
  simp [kind?]

theorem kind?_root (tree : FileTree) : tree.kind? [] = some .directory := by
  simp [kind?, get?, Entry.kind]

/-! ## 3. Walking -/

-- A walk that succeeds ends where its names lead. All that it passes is there, and all but the end
-- is a directory.
theorem walk_ok {tree : FileTree} {place found : Location} {names : List Text}
    (h : tree.walk place names = .ok found) :
    found = follow place names ∧ (∀ other ∈ passed place names, tree.kind? other ≠ none) ∧
      ∀ other ∈ passed place names.dropLast, tree.kind? other = some .directory := by
  induction names generalizing place with
  | nil =>
    simp only [walk, Except.ok.injEq] at h
    simp [follow, passed, h]
  | cons name rest ih =>
    -- Only before the last name does something have to be a directory, so every case asks whether
    -- names are left.
    have hdrop (hrest : rest ≠ []) : (name :: rest).dropLast = name :: rest.dropLast :=
      List.dropLast_cons_of_ne_nil hrest
    simp only [walk] at h
    by_cases hstay : (name = [] || name = Path.here) = true
    · rw [if_pos hstay] at h
      obtain ⟨hend, hthere, hdirs⟩ := ih h
      simp only [follow, passed, if_pos hstay]
      refine ⟨hend, hthere, ?_⟩
      by_cases hrest : rest = []
      · simp [hrest, passed]
      · simpa only [hdrop hrest, passed, if_pos hstay] using hdirs
    rw [if_neg hstay] at h
    by_cases hup : name = Path.up
    · rw [if_pos hup] at h
      obtain ⟨hend, hthere, hdirs⟩ := ih h
      simp only [follow, passed, if_neg hstay, if_pos hup]
      refine ⟨hend, hthere, ?_⟩
      by_cases hrest : rest = []
      · simp [hrest, passed]
      · simpa only [hdrop hrest, passed, if_neg hstay, if_pos hup] using hdirs
    rw [if_neg hup] at h
    split at h
    · simp at h
    simp only [follow, passed, if_neg hstay, if_neg hup]
    cases hget : tree.get? (place ++ [name]) with
    | none => simp [hget] at h
    | some entry =>
      have hkind : tree.kind? (place ++ [name]) = some entry.kind := by simp [kind?, hget]
      cases entry with
      | directory =>
        simp only [hget] at h
        obtain ⟨hend, hthere, hdirs⟩ := ih h
        refine ⟨hend, ?_, ?_⟩
        · intro other hother
          rcases List.mem_cons.mp hother with rfl | hother
          · simp [hkind]
          · exact hthere other hother
        · by_cases hrest : rest = []
          · simp [hrest, passed]
          · rw [hdrop hrest]
            simp only [passed, if_neg hstay, if_neg hup, List.mem_cons, forall_eq_or_imp]
            exact ⟨hkind, hdirs⟩
      | file content =>
        -- A walk that succeeds reaches a file with its last name only.
        simp only [hget] at h
        split at h
        · rename_i hrest
          subst hrest
          simp only [Except.ok.injEq] at h
          simp [follow, passed, ← h, hkind]
        · simp at h

-- A walk depends on the kinds of what it passes alone.
theorem walk_congr {tree other : FileTree} {place : Location} {names : List Text}
    (h : ∀ loc ∈ passed place names, other.kind? loc = tree.kind? loc) :
    other.walk place names = tree.walk place names := by
  induction names generalizing place with
  | nil => rfl
  | cons name rest ih =>
    simp only [walk]
    simp only [passed] at h
    split
    · rename_i hstay
      rw [if_pos hstay] at h
      exact ih h
    · rename_i hstay
      rw [if_neg hstay] at h
      split
      · rename_i hup
        rw [if_pos hup] at h
        exact ih h
      · rename_i hup
        rw [if_neg hup] at h
        have hhere := h (place ++ [name]) (by simp)
        have hrest := ih fun loc hloc => h loc (List.mem_cons_of_mem _ hloc)
        split
        · rfl
        · cases hget : tree.get? (place ++ [name]) with
          | none =>
            rw [kind?_eq_none.mpr hget, kind?_eq_none] at hhere
            simp [hhere]
          | some entry =>
            cases entry with
            | directory =>
              rw [kind?_eq_directory.mpr hget, kind?_eq_directory] at hhere
              simp [hhere, hrest]
            | file content =>
              rw [kind?_eq_file.mpr ⟨content, hget⟩, kind?_eq_file] at hhere
              obtain ⟨content', hget'⟩ := hhere
              simp [hget']

-- All that a walk into a directory passes are directories.
theorem kind?_of_walk {tree : FileTree} {place found : Location} {names : List Text}
    (h : tree.walk place names = .ok found) (hdir : tree.kind? found = some .directory) :
    ∀ other ∈ passed place names, tree.kind? other = some .directory := by
  obtain ⟨hend, -, hdirs⟩ := walk_ok h
  intro other hother
  by_cases hnil : names = []
  · simp [hnil, passed] at hother
  have hnames := List.dropLast_concat_getLast hnil
  rw [← hnames, passed_append, List.mem_append] at hother
  rcases hother with hother | hother
  · exact hdirs other hother
  · rw [← hnames, follow_append] at hend
    rw [eq_follow_of_mem_passed hother, ← hend, hdir]

-- A walk through directories can be taken further from its end.
theorem walk_append {tree : FileTree} {place found : Location} {names : List Text}
    (h : tree.walk place names = .ok found)
    (hdirs : ∀ other ∈ passed place names, tree.kind? other = some .directory)
    (others : List Text) : tree.walk place (names ++ others) = tree.walk found others := by
  induction names generalizing place with
  | nil =>
    simp only [walk, Except.ok.injEq] at h
    simp [h]
  | cons name rest ih =>
    simp only [List.cons_append, walk, passed] at h hdirs ⊢
    split
    · rename_i hstay
      rw [if_pos hstay] at h hdirs
      exact ih h hdirs
    · rename_i hstay
      rw [if_neg hstay] at h hdirs
      split
      · rename_i hup
        rw [if_pos hup] at h hdirs
        exact ih h hdirs
      · rename_i hup
        rw [if_neg hup] at h hdirs
        split
        · rename_i hlong
          simp [hlong] at h
        · rename_i hlong
          rw [if_neg hlong] at h
          have hget := kind?_eq_directory.mp (hdirs (place ++ [name]) (by simp))
          simp only [hget] at h ⊢
          exact ih h fun other hother => hdirs other (List.mem_cons_of_mem _ hother)

-- Empty components in the middle of a walk do not matter.
theorem walk_filter (tree : FileTree) (place : Location) {names : List Text}
    (h : names.getLast? ≠ some []) :
    tree.walk place (names.filter (· ≠ [])) = tree.walk place names := by
  induction names generalizing place with
  | nil => rfl
  | cons name rest ih =>
    have hlast (hrest : rest ≠ []) : rest.getLast? ≠ some [] := by
      rwa [List.getLast?_cons_of_ne_nil hrest] at h
    by_cases hrest : rest = []
    · subst hrest
      have hname : name ≠ [] := by simpa using h
      simp [hname]
    · have ih' := fun place => ih place (hlast hrest)
      by_cases hname : name = []
      · simpa [hname, walk] using ih' place
      · have hkept : rest.filter (· ≠ []) ≠ [] := by
          intro hnone
          have hmem := List.mem_of_getLast? (List.getLast?_eq_some_getLast hrest)
          have hempty : rest.getLast hrest = [] := by
            simpa using List.filter_eq_nil_iff.mp hnone _ hmem
          exact hlast hrest (by rw [List.getLast?_eq_some_getLast hrest, hempty])
        rw [List.filter_cons_of_pos (by simpa using hname)]
        simp only [walk, ih', hkept, hrest, if_false]

end FileTree
end StateOwnership
