import StateOwnership.Proofs.FileTree.Effects

/-!
# What paths lead to

A walk that succeeds passes through directories and ends in a directory or in a file. **What the
components of a path lead to is all that is asked about it, up to its length**, and the directory that
a path is in is there if the path leads anywhere.
-/

namespace StateOwnership.FileTree

/-! ## 1. Walking further and less far -/

/-- A walk that succeeds, name by name. It passes through directories, and a file can only be at its
end. -/
inductive Walks (tree : FileTree) : Location → List Text → Location → Prop where
  | nil {place : Location} : Walks tree place [] place
  | stay {place found : Location} {name : Text} {rest : List Text}
      (hname : name = [] ∨ name = Path.here) (hrest : Walks tree place rest found) :
      Walks tree place (name :: rest) found
  | up {place found : Location} {rest : List Text} (hrest : Walks tree place.dropLast rest found) :
      Walks tree place (Path.up :: rest) found
  | down {place found : Location} {name : Text} {rest : List Text} (hname : Proper name)
      (hshort : Path.octetCount name ≤ nameLimit)
      (hdir : tree.kind? (place ++ [name]) = some .directory)
      (hrest : Walks tree (place ++ [name]) rest found) : Walks tree place (name :: rest) found
  | file {place : Location} {name : Text} {rest : List Text} (hname : Proper name)
      (hshort : Path.octetCount name ≤ nameLimit)
      (hfile : tree.kind? (place ++ [name]) = some .file) (hend : rest = []) :
      Walks tree place (name :: rest) (place ++ [name])

section Walks

variable {tree : FileTree} {place found : Location} {names : List Text} {name : Text}

theorem walks_iff : tree.Walks place names found ↔ tree.walk place names = .ok found := by
  constructor
  · intro h
    induction h with
    | nil => rfl
    | stay hname hrest ih =>
      rw [walk, if_pos (by simpa using hname)]
      exact ih
    | up hrest ih =>
      rw [walk, if_neg (by decide), if_pos rfl]
      exact ih
    | down hname hshort hdir hrest ih =>
      rw [walk, if_neg (by simp [hname.1, hname.2.1]), if_neg hname.2.2,
        if_neg (Nat.not_lt.mpr hshort)]
      simp only [kind?_eq_directory.mp hdir]
      exact ih
    | file hname hshort hfile hend =>
      obtain ⟨content, hget⟩ := kind?_eq_file.mp hfile
      rw [walk, if_neg (by simp [hname.1, hname.2.1]), if_neg hname.2.2,
        if_neg (Nat.not_lt.mpr hshort)]
      simp [hget, hend]
  · intro h
    induction names generalizing place with
    | nil =>
      obtain rfl := Except.ok.inj h
      exact .nil
    | cons name rest ih =>
      rw [walk] at h
      split at h
      · rename_i hstay
        exact .stay (by simpa using hstay) (ih h)
      · rename_i hstay
        split at h
        · rename_i hup
          rw [hup]
          exact .up (ih h)
        · rename_i hup
          split at h
          · simp at h
          · rename_i hlong
            have hname : Proper name := by
              simp only [Bool.or_eq_true, decide_eq_true_eq, not_or] at hstay
              exact ⟨hstay.1, hstay.2, hup⟩
            have hshort := Nat.not_lt.mp hlong
            simp only at h
            split at h
            · simp at h
            · rename_i hget
              exact .down hname hshort (kind?_eq_directory.mpr hget) (ih h)
            · rename_i content hget
              split at h
              · rename_i hrest
                obtain rfl := Except.ok.inj h
                exact .file hname hshort (kind?_eq_file.mpr ⟨content, hget⟩) hrest
              · simp at h

-- A walk that succeeds does so without its empty names as well.
theorem Walks.filter (h : tree.Walks place names found) :
    tree.Walks place (names.filter (· ≠ [])) found := by
  induction h with
  | nil => exact .nil
  | stay hname hrest ih =>
    rcases hname with rfl | rfl
    · simpa using ih
    · exact .stay (.inr rfl) ih
  | up hrest ih => exact .up ih
  | down hname hshort hdir hrest ih =>
    rw [List.filter_cons_of_pos (by simpa using hname.1)]
    exact .down hname hshort hdir ih
  | file hname hshort hfile hend =>
    rw [List.filter_cons_of_pos (by simpa using hname.1)]
    exact .file hname hshort hfile (by simp [hend])

-- Empty names do not stop a walk that ends in a directory.
theorem Walks.of_filter (h : tree.Walks place (names.filter (· ≠ [])) found)
    (hdir : tree.kind? found = some .directory) : tree.Walks place names found := by
  induction names generalizing place with
  | nil => exact h
  | cons name rest ih =>
    by_cases hname : name = []
    · exact .stay (.inl hname) (ih (by simpa [hname] using h))
    · rw [List.filter_cons_of_pos (by simpa using hname)] at h
      cases h with
      | stay hstay hrest => exact .stay hstay (ih hrest)
      | up hrest => exact .up (ih hrest)
      | down hproper hshort hthere hrest => exact .down hproper hshort hthere (ih hrest)
      | file hproper hshort hfile => simp [hfile] at hdir

-- All names of a walk that succeeds but the last one can be walked.
theorem Walks.init (h : tree.Walks place (names ++ [name]) found) :
    ∃ parent, tree.Walks place names parent := by
  induction names generalizing place with
  | nil => exact ⟨place, .nil⟩
  | cons first rest ih =>
    cases h with
    | stay hstay hrest => exact (ih hrest).imp fun _ => .stay hstay
    | up hrest => exact (ih hrest).imp fun _ => .up
    | down hproper hshort hthere hrest => exact (ih hrest).imp fun _ => .down hproper hshort hthere
    | file hproper hshort hfile hend => simp at hend

end Walks

/-! ## 2. What a path leads to -/

/-- A path leads to an entry of a kind, as far as its components are concerned. -/
def Leads (tree : FileTree) (p : Text) (kind : Kind) : Prop :=
  ∃ found, tree.Walks (Path.origin tree.start p) (Path.components p) found ∧
    tree.kind? found = some kind

section Leads

variable {tree after : FileTree} {p q name : Text} {kind : Kind} {found : Location}
  {names : List Text}

theorem directory_of_prefix_origin (hroot : tree.Rooted) {loc : Location}
    (h : loc <+: Path.origin tree.start p) : tree.kind? loc = some .directory := by
  unfold Path.origin at h
  split at h
  · rw [List.prefix_nil.mp h]
    exact kind?_root tree
  · exact hroot loc h

-- A path without components leads to where it starts.
theorem leads_of_no_components (hroot : tree.Rooted) (h : Path.components p = []) :
    tree.Leads p .directory := by
  refine ⟨Path.origin tree.start p, ?_, directory_of_prefix_origin hroot List.prefix_rfl⟩
  rw [h]
  exact .nil

-- All that stands above the end of a walk into a directory are directories.
theorem Walks.directories (hroot : tree.Rooted)
    (h : tree.Walks (Path.origin tree.start p) names found)
    (hdir : tree.kind? found = some .directory) {loc : Location} (hloc : loc <+: found) :
    tree.kind? loc = some .directory := by
  have hwalk := walks_iff.mp h
  rw [(walk_ok hwalk).1] at hloc
  rcases mem_passed_of_prefix hloc with hpassed | hprefix
  · exact kind?_of_walk hwalk hdir loc hpassed
  · exact directory_of_prefix_origin hroot hprefix

theorem Leads.ne (h : tree.Leads p .file) : ¬ tree.Leads p .directory := by
  rintro ⟨found, hwalks, hdir⟩
  obtain ⟨other, hwalks', hfile⟩ := h
  rw [walks_iff] at hwalks hwalks'
  rw [hwalks, Except.ok.injEq] at hwalks'
  rw [hwalks', hfile] at hdir
  simp at hdir

-- The path of the directory that a path is in leads to a directory if the path leads anywhere.
theorem Walks.parent (hroot : tree.Rooted)
    (h : tree.Walks (Path.origin tree.start p) (names ++ [name]) found) :
    ∃ parent, tree.Walks (Path.origin tree.start p) names parent ∧
      tree.kind? parent = some .directory := by
  obtain ⟨parent, hparent⟩ := h.init
  refine ⟨parent, hparent, ?_⟩
  have hdirs := (walk_ok (walks_iff.mp h)).2.2
  rw [List.dropLast_concat] at hdirs
  have hend := (walk_ok (walks_iff.mp hparent)).1
  have hself : parent <+: follow (Path.origin tree.start p) names := hend ▸ List.prefix_rfl
  rcases mem_passed_of_prefix hself with hpassed | hprefix
  · exact hdirs parent hpassed
  · exact directory_of_prefix_origin hroot hprefix

theorem Walks.kept {place : Location} (h : tree.Walks place names found)
    (hkept : Kept tree after) : after.Walks place names found := by
  have hwalk := walks_iff.mp h
  rw [walks_iff, ← hwalk]
  exact walk_congr fun loc hloc => hkept.kind?_eq loc ((walk_ok hwalk).2.1 loc hloc)

theorem leads_of_locate (hroot : tree.Rooted) (h : tree.locate p = .ok found) :
    p ≠ [] ∧ Path.octetCount p ≤ pathLimit ∧
      tree.Walks (Path.origin tree.start p) (Path.components p) found ∧
      ∃ kind, tree.kind? found = some kind := by
  have hthere := Option.ne_none_iff_exists'.mp (kind?_of_locate hroot h)
  unfold locate at h
  split at h
  · simp at h
  rename_i hp
  split at h
  · simp at h
  rename_i hlong
  rw [reach_eq_walk, ← walks_iff] at h
  exact ⟨hp, Nat.le_of_not_lt hlong, h.filter, hthere⟩

theorem locate_of_leads (hp : p ≠ []) (hlong : Path.octetCount p ≤ pathLimit)
    (hwalks : tree.Walks (Path.origin tree.start p) (Path.components p) found)
    (hdir : tree.kind? found = some .directory) : tree.locate p = .ok found := by
  rw [locate, if_neg hp, if_neg (Nat.not_lt.mpr hlong), reach_eq_walk]
  exact walks_iff.mp (hwalks.of_filter hdir)

theorem isDirectory_iff (hroot : tree.Rooted) (hp : p ≠ []) : tree.isDirectory p = true ↔
    Path.check p = .ok () ∧ Path.octetCount p ≤ pathLimit ∧ tree.Leads p .directory := by
  constructor
  · intro h
    unfold isDirectory at h
    split at h
    · rename_i found hcheck hlocate
      obtain ⟨-, hlong, hwalks, -⟩ := leads_of_locate hroot hlocate
      exact ⟨hcheck, hlong, found, hwalks, kind?_eq_directory.mpr (by simpa using h)⟩
    · simp at h
  · rintro ⟨hcheck, hlong, found, hwalks, hdir⟩
    simp [isDirectory, hcheck, locate_of_leads hp hlong hwalks hdir, kind?_eq_directory.mp hdir]

theorem leads_of_pathExists (hroot : tree.Rooted) (h : tree.pathExists p = true) :
    p ≠ [] ∧ Path.check p = .ok () ∧ Path.octetCount p ≤ pathLimit ∧
      (tree.Leads p .directory ∨ tree.Leads p .file) := by
  obtain ⟨hcheck, found, hlocate⟩ := pathExists_ok h
  obtain ⟨hp, hlong, hwalks, kind, hkind⟩ := leads_of_locate hroot hlocate
  refine ⟨hp, hcheck, hlong, ?_⟩
  cases kind with
  | directory => exact .inl ⟨found, hwalks, hkind⟩
  | file => exact .inr ⟨found, hwalks, hkind⟩

end Leads

/-! ## 3. Trees that agree on what a path passes -/

section Agreeing

variable {tree other : FileTree} {p : Text}

end Agreeing

end StateOwnership.FileTree
