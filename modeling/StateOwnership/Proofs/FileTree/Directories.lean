import StateOwnership.Proofs.FileTree.Leading
import StateOwnership.Proofs.FileTree.Parents

/-!
# Which directories can be made

Making directories goes down from the first one that is there, so what it does depends on the
directories that are there. **How it ends depends on the files on the way alone**, except for paths
that name the directory itself in the middle: a file in front of such a name is noticed or not.
-/

namespace StateOwnership.FileTree

/-! ## 1. One directory -/

/-- How it ends to make a directory of a name in a directory that is there. It is blocked if there is
a file of that name. -/
def making (p name : Text) (blocked : Bool) : Except Fault Unit :=
  match Path.check p with
  | .error fault => .error (.path fault)
  | .ok _ =>
    if pathLimit < Path.octetCount p then refuse p .nameTooLong
    else if name = Path.here || name = Path.up then .ok ()
    else if nameLimit < Path.octetCount name then refuse p .nameTooLong
    else if blocked then refuse p .fileExists
    else .ok ()

def makingBelowFile (p : Text) : Except Fault Unit :=
  match Path.check p with
  | .error fault => .error (.path fault)
  | .ok _ => if pathLimit < Path.octetCount p then refuse p .nameTooLong else refuse p .notDirectory

theorem makingBelowFile_error (p : Text) : ∃ fault, makingBelowFile p = .error fault ∧
    ∀ path, fault ≠ .refused ⟨.fileExists, path⟩ := by
  unfold makingBelowFile refuse
  split
  · exact ⟨_, rfl, by simp⟩
  · split <;> exact ⟨_, rfl, by simp⟩

section Making

variable {tree : FileTree} {p name : Text} {parent : Location} {names : List Text}

theorem walkToDirectory_of_walks {place : Location} (hwalks : tree.Walks place names parent)
    (hdir : tree.kind? parent = some .directory) :
    tree.walkToDirectory place names = .ok parent := by
  rw [walkToDirectory, reach_eq_walk, walks_iff.mp hwalks]
  simp only [kind?_eq_directory.mp hdir]

theorem slot_of_walks (hcomponents : Path.components p = names ++ [name])
    (hwalks : tree.Walks (Path.origin tree.start p) names parent)
    (hdir : tree.kind? parent = some .directory) (hlong : Path.octetCount p ≤ pathLimit) :
    tree.slot p =
      .ok (parent, if name = Path.here || name = Path.up then none else some name) := by
  have hp : p ≠ [] := by
    rintro rfl
    simp [Path.components, Text.splitOn] at hcomponents
  have hlast : (names ++ [name]).getLast? = some name := by simp
  rw [slot, if_neg hp, if_neg (Nat.not_lt.mpr hlong)]
  simp only [hcomponents, List.dropLast_concat, hlast]
  rw [show tree.startOf p = Path.origin tree.start p from rfl,
    walkToDirectory_of_walks hwalks hdir]

-- A walk into a directory goes on with the names behind it.
theorem walks_append {place : Location} (hwalks : tree.Walks place names parent)
    (hdir : tree.kind? parent = some .directory) (others : List Text) (found : Location) :
    tree.Walks place (names ++ others) found ↔ tree.Walks parent others found := by
  have hwalk := walks_iff.mp hwalks
  rw [walks_iff, walks_iff, walk_append hwalk (kind?_of_walk hwalk hdir)]

theorem leads_dots (hroot : tree.Rooted) (hcomponents : Path.components p = names ++ [name])
    (hwalks : tree.Walks (Path.origin tree.start p) names parent)
    (hdir : tree.kind? parent = some .directory) (hname : name = Path.here ∨ name = Path.up) :
    tree.Leads p .directory := by
  have hgoes := walks_append hwalks hdir [name]
  rw [← hcomponents] at hgoes
  rcases hname with rfl | rfl
  · exact ⟨parent, (hgoes _).mpr (.stay (.inr rfl) .nil), hdir⟩
  · exact ⟨parent.dropLast, (hgoes _).mpr (.up .nil),
      hwalks.directories hroot hdir (List.dropLast_prefix parent)⟩

theorem leads_proper (hcomponents : Path.components p = names ++ [name])
    (hwalks : tree.Walks (Path.origin tree.start p) names parent)
    (hdir : tree.kind? parent = some .directory) (hname : Proper name) (kind : Kind) :
    tree.Leads p kind ↔
      Path.octetCount name ≤ nameLimit ∧ tree.kind? (parent ++ [name]) = some kind := by
  have hgoes := walks_append hwalks hdir [name]
  rw [← hcomponents] at hgoes
  constructor
  · rintro ⟨found, hfound, hkind⟩
    rw [hgoes] at hfound
    cases hfound with
    | stay hstay hrest => exact absurd hstay (by simp [hname.1, hname.2.1])
    | up hrest => exact absurd rfl hname.2.2
    | down hproper hshort hthere hrest =>
      cases hrest
      exact ⟨hshort, hkind⟩
    | file hproper hshort hfile hend => exact ⟨hshort, hkind⟩
  · rintro ⟨hshort, hkind⟩
    refine ⟨parent ++ [name], (hgoes _).mpr ?_, hkind⟩
    cases kind with
    | directory => exact .down hname hshort hkind .nil
    | file => exact .file hname hshort hkind rfl

theorem kept_set_directory {place : Location} (hnone : tree.get? place = none) :
    Kept tree (tree.set place .directory) := by
  refine ⟨rfl, fun loc hloc => ?_⟩
  have hne : place ≠ loc := by
    rintro rfl
    exact hloc (kind?_eq_none.mpr hnone)
  rw [kind?, kind?, get?_set_of_ne hne]

-- The path of a directory that has been made leads to it.
theorem leads_set_directory (hcomponents : Path.components p = names ++ [name])
    (hwalks : tree.Walks (Path.origin tree.start p) names parent)
    (hdir : tree.kind? parent = some .directory) (hname : Proper name)
    (hshort : Path.octetCount name ≤ nameLimit) (hnone : tree.get? (parent ++ [name]) = none) :
    (tree.set (parent ++ [name]) .directory).Leads p .directory := by
  have hkept := kept_set_directory hnone
  have hdir' : (tree.set (parent ++ [name]) .directory).kind? parent = some .directory := by
    rw [hkept.kind?_eq parent (by simp [hdir]), hdir]
  have hwalks' : (tree.set (parent ++ [name]) .directory).Walks
      (Path.origin (tree.set (parent ++ [name]) .directory).start p) names parent :=
    hwalks.kept hkept
  refine (leads_proper hcomponents hwalks' hdir' hname _).mpr ⟨hshort, ?_⟩
  simp [kind?, get?_set, Entry.kind]

-- A name in a directory that is there: the directory is made unless there is a file.
theorem ensureDirectory_in (hroot : tree.Rooted)
    (hcomponents : Path.components p = names ++ [name])
    (hwalks : tree.Walks (Path.origin tree.start p) names parent)
    (hdir : tree.kind? parent = some .directory) :
    (tree.ensureDirectory p).1 = making p name (tree.kind? (parent ++ [name]) = some .file) ∧
      ((tree.ensureDirectory p).1 = .ok () → (tree.ensureDirectory p).2.Leads p .directory) ∧
      ∀ path, (tree.ensureDirectory p).1 = .error (.refused ⟨.fileExists, path⟩) →
        (tree.ensureDirectory p).2.Leads p .file := by
  have hp : p ≠ [] := by
    rintro rfl
    simp [Path.components, Text.splitOn] at hcomponents
  have hname : name ≠ [] := by
    have hmem : name ∈ Path.components p := by simp [hcomponents]
    simpa using (List.mem_filter.mp hmem).2
  have hthere := isDirectory_iff hroot hp
  unfold ensureDirectory making makeDirectory
  cases hcheck : Path.check p with
  | error fault => simp
  | ok u =>
    simp only
    by_cases hlong : pathLimit < Path.octetCount p
    · have hslot : tree.slot p = .error .nameTooLong := by rw [slot, if_neg hp, if_pos hlong]
      have hnone : tree.isDirectory p = false := by
        rw [← Bool.not_eq_true, hthere]
        exact fun h => absurd h.2.1 (Nat.not_le.mpr hlong)
      simp [hslot, refuse, hnone, hlong]
    rw [slot_of_walks hcomponents hwalks hdir (Nat.le_of_not_lt hlong), if_neg hlong]
    by_cases hdots : name = Path.here ∨ name = Path.up
    · have hleads := leads_dots hroot hcomponents hwalks hdir hdots
      have hsome : tree.isDirectory p = true :=
        hthere.mpr ⟨hcheck, Nat.le_of_not_lt hlong, hleads⟩
      have hdots' : (name = Path.here || name = Path.up) = true := by simpa using hdots
      simp [hdots', refuse, hsome, hleads]
    · have hproper : Proper name := ⟨hname, not_or.mp hdots⟩
      have hdots' : (name = Path.here || name = Path.up) = false := by simpa using hdots
      have hkinds := leads_proper hcomponents hwalks hdir hproper
      simp only [hdots', Bool.false_eq_true, if_false]
      by_cases hshort : nameLimit < Path.octetCount name
      · have hnone : tree.isDirectory p = false := by
          rw [← Bool.not_eq_true, hthere, hkinds]
          exact fun h => absurd h.2.2.1 (Nat.not_le.mpr hshort)
        simp [hshort, refuse, hnone]
      · have hshort' := Nat.le_of_not_lt hshort
        simp only [if_neg hshort]
        cases hget : tree.get? (parent ++ [name]) with
        | none =>
          have hkind : tree.kind? (parent ++ [name]) = none := kind?_eq_none.mpr hget
          have hmade := leads_set_directory hcomponents hwalks hdir hproper hshort' hget
          simp [hkind, hmade]
        | some entry =>
          have hleads := (hkinds entry.kind).mpr ⟨hshort', by simp [kind?, hget]⟩
          cases entry with
          | directory =>
            have hkind : tree.kind? (parent ++ [name]) = some .directory :=
              kind?_eq_directory.mpr hget
            have hsome : tree.isDirectory p = true :=
              hthere.mpr ⟨hcheck, Nat.le_of_not_lt hlong, hleads⟩
            have hleads' : tree.Leads p .directory := hleads
            simp [refuse, hsome, hkind, hleads']
          | file content =>
            have hkind : tree.kind? (parent ++ [name]) = some .file :=
              kind?_eq_file.mpr ⟨content, hget⟩
            have hleads' : tree.Leads p .file := hleads
            have hnone : tree.isDirectory p = false := by
              rw [← Bool.not_eq_true, hthere]
              exact fun h => hleads'.ne h.2.2
            simp [refuse, hnone, hkind, hleads']

theorem ensureDirectory_error {fault : Fault} (h : (tree.ensureDirectory p).1 = .error fault) :
    (tree.ensureDirectory p).2 = tree := by
  unfold ensureDirectory at h ⊢
  split
  · rename_i made hmade
    simp [hmade] at h
  · rfl
  · split <;> rfl

-- A directory that is there need not be made.
theorem ensureDirectory_of_isDirectory (h : tree.isDirectory p = true) :
    tree.ensureDirectory p = (.ok (), tree) := by
  obtain ⟨hcheck, found, hlocate, hget⟩ : Path.check p = .ok () ∧ ∃ found,
      tree.locate p = .ok found ∧ tree.get? found = some .directory := by
    unfold isDirectory at h
    split at h
    · rename_i found hcheck hlocate
      exact ⟨hcheck, found, hlocate, by simpa using h⟩
    · simp at h
  unfold ensureDirectory
  cases hmake : tree.makeDirectory p with
  | ok made =>
    exfalso
    unfold makeDirectory at hmake
    simp only [hcheck] at hmake
    split at hmake
    · simp [refuse] at hmake
    · simp [refuse] at hmake
    rename_i parent name hslot
    split at hmake
    · simp [refuse] at hmake
    split at hmake
    · simp [refuse] at hmake
    rename_i hnone
    have hplace := (slot_target hslot).1
    rw [← (locate_ok hlocate).1] at hplace
    rw [← hplace, hget] at hnone
    simp at hnone
  | error fault =>
    cases fault with
    | path fault =>
      exfalso
      unfold makeDirectory at hmake
      simp only [hcheck] at hmake
      repeat' split at hmake
      all_goals simp [refuse] at hmake
    | refused refusal => simp [h]

-- Below a file no directory can be made.
theorem ensureDirectory_below_file {parent : Text} (hroot : tree.Rooted)
    (hinside : Path.Inside p parent name) (hfile : tree.Leads parent .file) :
    tree.ensureDirectory p = (makingBelowFile p, tree) := by
  have hp : p ≠ [] := by
    have hlength := hinside.length_lt
    rintro rfl
    simp at hlength
  have hnone : tree.isDirectory p = false := by
    rw [← Bool.not_eq_true, isDirectory_iff hroot hp]
    rintro ⟨-, -, found, hwalks, -⟩
    rw [hinside.components_eq] at hwalks
    obtain ⟨above, habove, hdir⟩ := hwalks.parent hroot
    rw [hinside.origin_eq] at habove
    exact hfile.ne ⟨above, habove, hdir⟩
  obtain ⟨found, hwalks, hkind⟩ := hfile
  obtain ⟨content, hget⟩ := kind?_eq_file.mp hkind
  rw [← hinside.origin_eq] at hwalks
  unfold ensureDirectory makeDirectory makingBelowFile
  cases hcheck : Path.check p with
  | error fault => rfl
  | ok u =>
    simp only
    by_cases hlong : pathLimit < Path.octetCount p
    · have hslot : tree.slot p = .error .nameTooLong := by rw [slot, if_neg hp, if_pos hlong]
      simp [hslot, refuse, hnone, hlong]
    · have hslot : tree.slot p = .error .notDirectory := by
        rw [slot, if_neg hp, if_neg hlong]
        simp only [hinside.components_eq, List.dropLast_concat, walkToDirectory, reach_eq_walk]
        rw [show tree.startOf p = Path.origin tree.start p from rfl, walks_iff.mp hwalks]
        simp only [hget]
      simp [hslot, refuse, hnone, hlong]

-- A path of slashes leads to the root.
theorem ensureDirectory_slashes (hroot : tree.Rooted) (hslashes : ∀ c ∈ p, c = Path.slash) :
    tree.ensureDirectory p = (if p = [] then refuse p .noEntry
      else if pathLimit < Path.octetCount p then refuse p .nameTooLong else .ok (), tree) := by
  have hcheck : Path.check p = .ok () :=
    Path.check_of_subset (q := []) rfl fun c hc => .inr (.inl (hslashes c hc))
  by_cases hp : p = []
  · have hnone : tree.isDirectory [] = false := by simp [isDirectory, locate]
    simp [hp, ensureDirectory, makeDirectory, slot, refuse, hnone, show Path.check [] = .ok () from rfl]
  have hleads := leads_of_no_components hroot (Path.components_of_slashes hslashes)
  have hthere := isDirectory_iff hroot hp
  rw [if_neg hp]
  by_cases hlong : pathLimit < Path.octetCount p
  · have hslot : tree.slot p = .error .nameTooLong := by rw [slot, if_neg hp, if_pos hlong]
    have hnone : tree.isDirectory p = false := by
      rw [← Bool.not_eq_true, hthere]
      exact fun h => absurd h.2.1 (Nat.not_le.mpr hlong)
    simp [ensureDirectory, makeDirectory, hcheck, hslot, refuse, hnone, hlong]
  · rw [if_neg hlong]
    exact ensureDirectory_of_isDirectory (hthere.mpr ⟨hcheck, Nat.le_of_not_lt hlong, hleads⟩)

theorem pathExists_parent {parent : Text} (hroot : tree.Rooted)
    (hinside : Path.Inside p parent name) (h : tree.pathExists p = true) :
    tree.pathExists parent = true := by
  obtain ⟨hcheck, found, hlocate⟩ := pathExists_ok h
  obtain ⟨-, hlong, hwalks, -⟩ := leads_of_locate hroot hlocate
  rw [hinside.components_eq] at hwalks
  obtain ⟨above, habove, hdir⟩ := hwalks.parent hroot
  rw [hinside.origin_eq] at habove
  exact pathExists_of_locate (hinside.check_parent hcheck)
    (locate_of_leads hinside.parent_ne (hinside.octetCount_le.trans hlong) habove hdir)

end Making

/-! ## 2. Directories on the way -/

section Chains

variable {tree other : FileTree} {p parent name : Text}

-- What is there need not be made, nor does anything above it.
theorem ensureDirectories_of_pathExists (hroot : tree.Rooted) (h : tree.pathExists p = true)
    (fuel : Nat) : tree.ensureDirectories p (fuel + 1) = tree.ensureDirectory p := by
  rw [ensureDirectories]
  simp only
  rw [if_neg]
  rintro ⟨hparent, hname, hnone⟩
  rcases splitLast_cases p with ⟨hnil, -⟩ | ⟨hnil, -⟩ | ⟨-, hinside⟩
  · exact hname hnil
  · exact hparent hnil
  · rw [pathExists_parent hroot hinside h] at hnone
    simp at hnone

theorem ensureDirectory_of_file (hroot : tree.Rooted) (h : tree.pathExists p = true)
    (hfile : tree.Leads p .file) : tree.ensureDirectory p = (refuse p .fileExists, tree) := by
  obtain ⟨hcheck, found, hlocate⟩ := pathExists_ok h
  obtain ⟨-, hlong, hwalks, -⟩ := leads_of_locate hroot hlocate
  rcases List.eq_nil_or_concat (Path.components p) with hnil | ⟨names, name, hcomponents⟩
  · exact absurd (leads_of_no_components hroot hnil) hfile.ne
  · rw [List.concat_eq_append] at hcomponents
    rw [hcomponents] at hwalks
    obtain ⟨above, habove, hdir⟩ := hwalks.parent hroot
    have hdots : ¬ (name = Path.here ∨ name = Path.up) := fun hdots =>
      hfile.ne (leads_dots hroot hcomponents habove hdir hdots)
    have hname : name ≠ [] := by
      have hmem : name ∈ Path.components p := by simp [hcomponents]
      simpa using (List.mem_filter.mp hmem).2
    obtain ⟨hshort, hkind⟩ :=
      (leads_proper hcomponents habove hdir ⟨hname, not_or.mp hdots⟩ .file).mp hfile
    have hresult : (tree.ensureDirectory p).1 = refuse p .fileExists := by
      rw [(ensureDirectory_in hroot hcomponents habove hdir).1, making, hcheck]
      have hdots' : (name = Path.here || name = Path.up) = false := by simpa using hdots
      simp [Nat.not_lt.mpr hlong, hdots', Nat.not_lt.mpr hshort, hkind]
    exact Prod.ext hresult (ensureDirectory_error hresult)

/-- A path in which the directory itself is named in the middle or at the end only if no file is on
its way and it is not too long. Where this fails, what is reported to be in the way depends on the
directories that are there. -/
def Plain (tree : FileTree) (p : Text) : Prop :=
  Path.here ∈ (Text.splitOn Path.slash p).tail →
    Path.octetCount p ≤ pathLimit ∧ ∀ loc ∈ Path.trail tree.start p, tree.kind? loc ≠ some .file

/-- Goes on to the last name of a path after the directory that it is in was made, or was found to be
a file. -/
def goOn (p name : Text) : Except Fault Unit × FileTree → Except Fault Unit × FileTree
  | (.ok _, made) => if name = Path.here then (.ok (), made) else made.ensureDirectory p
  | (.error (.refused ⟨.fileExists, _⟩), made) =>
    if name = Path.here then (.ok (), made) else made.ensureDirectory p
  | (.error fault, made) => (.error fault, made)

theorem Plain.above (h : Plain tree p) (hinside : Path.Inside p parent name) :
    Plain tree parent := by
  intro hhere
  obtain ⟨hlong, hfiles⟩ := h (hinside.here_mem hhere)
  exact ⟨hinside.octetCount_le.trans hlong, fun loc hloc =>
    hfiles loc (hinside.trail_subset _ hloc)⟩

-- A path whose components lead to a file has it on its way.
theorem Leads.file_mem (hroot : tree.Rooted) (h : tree.Leads p .file) :
    ∃ loc ∈ Path.trail tree.start p, tree.kind? loc = some .file := by
  obtain ⟨found, hwalks, hfile⟩ := h
  have hend := (walk_ok (walks_iff.mp hwalks)).1
  have hself : found <+: follow (Path.origin tree.start p) (Path.components p) :=
    hend ▸ List.prefix_rfl
  rcases mem_passed_of_prefix hself with hmem | hprefix
  · exact ⟨found, hmem, hfile⟩
  · rw [directory_of_prefix_origin hroot hprefix] at hfile
    simp at hfile

-- If the directory that a path is in is there, its last name is all there is to make.
theorem ensureDirectories_eq (hinside : Path.Inside p parent name)
    (hsplit : splitLast p = (parent, name)) (hname : name ≠ []) (fuel : Nat) :
    tree.ensureDirectories p (fuel + 1) =
      if tree.pathExists parent = true then tree.ensureDirectory p
      else goOn p name (tree.ensureDirectories parent fuel) := by
  rw [ensureDirectories]
  simp only [hsplit]
  cases hthere : tree.pathExists parent with
  | true => simp
  | false =>
    rw [if_pos ⟨hinside.parent_ne, hname, rfl⟩, if_neg (by simp)]
    rfl

-- The directory that a path is in is made first, whether something of its name is there or not.
theorem ensureDirectories_inside (hroot : tree.Rooted) (hplain : Plain tree p)
    (hinside : Path.Inside p parent name) (hsplit : splitLast p = (parent, name))
    (hname : name ≠ []) (fuel : Nat) :
    tree.ensureDirectories p (fuel + 2) =
      goOn p name (tree.ensureDirectories parent (fuel + 1)) := by
  rw [ensureDirectories_eq hinside hsplit hname]
  split
  swap
  · rfl
  rename_i hthere
  obtain ⟨-, hcheck, hlong, hdir | hfile⟩ := leads_of_pathExists hroot hthere
  · have hmade : tree.ensureDirectories parent (fuel + 1) = (.ok (), tree) := by
      rw [ensureDirectories_of_pathExists hroot hthere]
      exact ensureDirectory_of_isDirectory
        ((isDirectory_iff hroot hinside.parent_ne).mpr ⟨hcheck, hlong, hdir⟩)
    rw [hmade, goOn]
    split
    · rename_i hhere
      have hp : p ≠ [] := by
        have hlength := hinside.length_lt
        rintro rfl
        simp at hlength
      have hcheck' : Path.check p = .ok () :=
        Path.check_of_subset hcheck fun c hc => hhere ▸ hinside.subset c hc
      obtain ⟨found, hwalks, hkind⟩ := hdir
      rw [← hinside.origin_eq] at hwalks
      have hleads := leads_dots hroot hinside.components_eq hwalks hkind (.inl hhere)
      exact ensureDirectory_of_isDirectory ((isDirectory_iff hroot hp).mpr
        ⟨hcheck', (hplain (hhere ▸ hinside.name_mem)).1, hleads⟩)
    · rfl
  · have hmade : tree.ensureDirectories parent (fuel + 1) = (refuse parent .fileExists, tree) := by
      rw [ensureDirectories_of_pathExists hroot hthere]
      exact ensureDirectory_of_file hroot hthere hfile
    rw [hmade, refuse, goOn]
    split
    · rename_i hhere
      exfalso
      obtain ⟨loc, hloc, hkind⟩ := hfile.file_mem hroot
      exact (hplain (hhere ▸ hinside.name_mem)).2 loc (hinside.trail_subset _ hloc) hkind
    · rfl

theorem Grown.file_iff {places : List Location} (h : Grown places tree other) (loc : Location) :
    other.kind? loc = some .file ↔ tree.kind? loc = some .file := by
  rcases h.get?_eq loc with hsame | ⟨-, hnone, hdir⟩
  · simp only [kind?, hsame]
  · simp [kind?, hnone, hdir, Entry.kind]

theorem Plain.congr (h : Plain tree p) (hstart : other.start = tree.start)
    (hfiles : ∀ loc ∈ Path.trail tree.start p,
      other.kind? loc = some .file ↔ tree.kind? loc = some .file) : Plain other p := by
  intro hhere
  obtain ⟨hlong, hclean⟩ := h hhere
  refine ⟨hlong, fun loc hloc hfile => ?_⟩
  rw [hstart] at hloc
  exact hclean loc hloc ((hfiles loc hloc).mp hfile)

theorem ensureDirectories_outside (h : (splitLast p).1 = [] ∨ (splitLast p).2 = [])
    (fuel : Nat) : tree.ensureDirectories p (fuel + 1) = tree.ensureDirectory p := by
  rw [ensureDirectories]
  simp only
  rw [if_neg]
  rintro ⟨hparent, hname, -⟩
  exact h.elim hparent hname

-- What goes on in the directory that was made, or below the file that was found.
theorem goOn_leads (hroot : tree.Rooted) (hplain : Plain tree p)
    (hinside : Path.Inside p parent name) {result : Except Fault Unit}
    (hdir : result = .ok () → tree.Leads parent .directory)
    (hfile : ∀ path, result = .error (.refused ⟨.fileExists, path⟩) → tree.Leads parent .file) :
    ((goOn p name (result, tree)).1 = .ok () → (goOn p name (result, tree)).2.Leads p .directory) ∧
      ∀ path, (goOn p name (result, tree)).1 = .error (.refused ⟨.fileExists, path⟩) →
        (goOn p name (result, tree)).2.Leads p .file := by
  rcases result with (⟨cause, path⟩ | fault) | u
  · by_cases hcause : cause = .fileExists
    · subst hcause
      have hleads := hfile path rfl
      rw [goOn]
      split
      · rename_i hhere
        obtain ⟨loc, hloc, hkind⟩ := hleads.file_mem hroot
        exact absurd hkind ((hplain (hhere ▸ hinside.name_mem)).2 loc
          (hinside.trail_subset _ hloc))
      · obtain ⟨fault, hfault, hother⟩ := makingBelowFile_error p
        rw [ensureDirectory_below_file hroot hinside hleads, hfault]
        exact ⟨by simp, fun path hpath => absurd (Except.error.inj hpath) (hother path)⟩
    · cases cause <;> simp_all [goOn]
  · simp [goOn]
  · obtain ⟨above, hwalks, hkind⟩ := hdir rfl
    rw [← hinside.origin_eq] at hwalks
    rw [goOn]
    split
    · rename_i hhere
      exact ⟨fun _ => leads_dots hroot hinside.components_eq hwalks hkind (.inl hhere), by simp⟩
    · exact (ensureDirectory_in hroot hinside.components_eq hwalks hkind).2

-- Directories that can be made are there afterwards; a file that is in their place was there before.
theorem ensureDirectories_leads (hroot : tree.Rooted) (hplain : Plain tree p) {fuel : Nat}
    (hfuel : p.length < fuel) :
    ((tree.ensureDirectories p fuel).1 = .ok () →
        (tree.ensureDirectories p fuel).2.Leads p .directory) ∧
      ∀ path, (tree.ensureDirectories p fuel).1 = .error (.refused ⟨.fileExists, path⟩) →
        (tree.ensureDirectories p fuel).2.Leads p .file := by
  induction fuel generalizing p with
  | zero => exact absurd hfuel (Nat.not_lt_zero _)
  | succ fuel ih =>
    rcases splitLast_cases p with ⟨hnil, hslashes⟩ | ⟨hnil, -, hcomponents, hrelative⟩ |
      ⟨hname, hinside⟩
    · rw [ensureDirectories_outside (.inr hnil), ensureDirectory_slashes hroot hslashes]
      refine ⟨fun _ => leads_of_no_components hroot (Path.components_of_slashes hslashes),
        fun path hfound => ?_⟩
      simp only at hfound
      split at hfound
      · simp [refuse] at hfound
      · split at hfound <;> simp [refuse] at hfound
    · rw [ensureDirectories_outside (.inl hnil)]
      rw [← List.nil_append [_]] at hcomponents
      exact (ensureDirectory_in hroot hcomponents .nil
        (directory_of_prefix_origin hroot List.prefix_rfl)).2
    · cases fuel with
      | zero =>
        have hlength := hinside.length_lt
        omega
      | succ fuel =>
        rw [ensureDirectories_inside hroot hplain hinside rfl hname]
        obtain ⟨hdir, hfile⟩ := ih (hplain.above hinside) (by have := hinside.length_lt; omega)
        have hgrown := ensureDirectories_grown tree (splitLast p).1 (fuel + 1)
        exact goOn_leads (hgrown.kept.rooted hroot)
          (hplain.congr hgrown.start_eq fun loc _ => hgrown.file_iff loc) hinside hdir hfile

-- A name in a directory that is there in both of two trees.
theorem ensureDirectory_congr {names : List Text} {above above' : Location} (hroot : tree.Rooted)
    (hother : other.Rooted) (hstart : other.start = tree.start)
    (hfiles : ∀ loc ∈ Path.trail tree.start p,
      other.kind? loc = some .file ↔ tree.kind? loc = some .file)
    (hcomponents : Path.components p = names ++ [name])
    (hwalks : tree.Walks (Path.origin tree.start p) names above)
    (hdir : tree.kind? above = some .directory)
    (hwalks' : other.Walks (Path.origin other.start p) names above')
    (hdir' : other.kind? above' = some .directory) :
    (other.ensureDirectory p).1 = (tree.ensureDirectory p).1 := by
  rw [(ensureDirectory_in hroot hcomponents hwalks hdir).1,
    (ensureDirectory_in hother hcomponents hwalks' hdir').1]
  have hend := (walk_ok (walks_iff.mp hwalks)).1
  have hend' := (walk_ok (walks_iff.mp hwalks')).1
  have hsame : above' = above := by rw [hend', hend, hstart]
  subst hsame
  unfold making
  split
  · rfl
  split
  · rfl
  split
  · rfl
  rename_i hdots
  have hproper : Proper name := by
    have hmem : name ∈ Path.components p := by simp [hcomponents]
    exact ⟨by simpa using (List.mem_filter.mp hmem).2, by simpa using hdots⟩
  have hmem : above' ++ [name] ∈ Path.trail tree.start p := by
    rw [Path.trail, hcomponents, passed_append, ← hend, passed_proper hproper]
    simp
  simp only [hfiles _ hmem]

theorem goOn_congr (hroot : tree.Rooted) (hother : other.Rooted)
    (hstart : other.start = tree.start)
    (hfiles : ∀ loc ∈ Path.trail tree.start p,
      other.kind? loc = some .file ↔ tree.kind? loc = some .file)
    (hinside : Path.Inside p parent name) {result : Except Fault Unit}
    (hdir : result = .ok () → tree.Leads parent .directory ∧ other.Leads parent .directory)
    (hfile : ∀ path, result = .error (.refused ⟨.fileExists, path⟩) →
      tree.Leads parent .file ∧ other.Leads parent .file) :
    (goOn p name (result, other)).1 = (goOn p name (result, tree)).1 := by
  rcases result with (⟨cause, path⟩ | fault) | u
  · by_cases hcause : cause = .fileExists
    · subst hcause
      obtain ⟨hleads, hleads'⟩ := hfile path rfl
      simp only [goOn, ensureDirectory_below_file hroot hinside hleads,
        ensureDirectory_below_file hother hinside hleads']
      split <;> rfl
    · cases cause <;> simp_all [goOn]
  · rfl
  · obtain ⟨⟨above, hwalks, hkind⟩, above', hwalks', hkind'⟩ := hdir rfl
    rw [← hinside.origin_eq] at hwalks hwalks'
    simp only [goOn]
    split
    · rfl
    · exact ensureDirectory_congr hroot hother hstart hfiles hinside.components_eq hwalks hkind
        hwalks' hkind'

-- What goes on after the directories above were made in both of two trees, and that ended alike.
theorem goOn_ensureDirectories_congr (hroot : tree.Rooted) (hother : other.Rooted)
    (hstart : other.start = tree.start)
    (hfiles : ∀ loc ∈ Path.trail tree.start p,
      other.kind? loc = some .file ↔ tree.kind? loc = some .file)
    (hinside : Path.Inside p parent name) (hplain : Plain tree parent) {fuel : Nat}
    (hfuel : parent.length < fuel)
    (hsame : (other.ensureDirectories parent fuel).1 = (tree.ensureDirectories parent fuel).1) :
    (goOn p name (other.ensureDirectories parent fuel)).1 =
      (goOn p name (tree.ensureDirectories parent fuel)).1 := by
  have hplain' := hplain.congr hstart fun loc hloc => hfiles loc (hinside.trail_subset _ hloc)
  have hleads := ensureDirectories_leads hroot hplain hfuel
  have hleads' := ensureDirectories_leads hother hplain' hfuel
  have hgrown := ensureDirectories_grown tree parent fuel
  have hgrown' := ensureDirectories_grown other parent fuel
  generalize tree.ensureDirectories parent fuel = first at *
  generalize other.ensureDirectories parent fuel = second at *
  obtain ⟨result, made⟩ := first
  obtain ⟨result', made'⟩ := second
  obtain rfl : result' = result := hsame
  refine goOn_congr (hgrown.kept.rooted hroot) (hgrown'.kept.rooted hother) ?_ ?_ hinside
    (fun hok => ⟨hleads.1 hok, hleads'.1 hok⟩)
    fun path hpath => ⟨hleads.2 path hpath, hleads'.2 path hpath⟩
  · rw [hgrown'.start_eq, hgrown.start_eq, hstart]
  · intro loc hloc
    rw [hgrown.start_eq] at hloc
    rw [hgrown'.file_iff, hgrown.file_iff]
    exact hfiles loc hloc

-- **Whether directories can be made depends on the files on their way alone**, and not on the
-- directories that are there.
theorem ensureDirectories_congr (hroot : tree.Rooted) (hother : other.Rooted)
    (hstart : other.start = tree.start)
    (hfiles : ∀ loc ∈ Path.trail tree.start p,
      other.kind? loc = some .file ↔ tree.kind? loc = some .file)
    (hplain : Plain tree p) {fuel : Nat} (hfuel : p.length < fuel) :
    (other.ensureDirectories p fuel).1 = (tree.ensureDirectories p fuel).1 := by
  induction fuel generalizing p with
  | zero => exact absurd hfuel (Nat.not_lt_zero _)
  | succ fuel ih =>
    rcases splitLast_cases p with ⟨hnil, hslashes⟩ | ⟨hnil, -, hcomponents, -⟩ | ⟨hname, hinside⟩
    · rw [ensureDirectories_outside (.inr hnil), ensureDirectories_outside (.inr hnil),
        ensureDirectory_slashes hroot hslashes, ensureDirectory_slashes hother hslashes]
    · rw [ensureDirectories_outside (.inl hnil), ensureDirectories_outside (.inl hnil)]
      rw [← List.nil_append [_]] at hcomponents
      exact ensureDirectory_congr hroot hother hstart hfiles hcomponents .nil
        (directory_of_prefix_origin hroot List.prefix_rfl) .nil
        (directory_of_prefix_origin hother List.prefix_rfl)
    · have hlength := hinside.length_lt
      obtain ⟨fuel, rfl⟩ : ∃ less, fuel = less + 1 := ⟨fuel - 1, by omega⟩
      have hfuel' : (splitLast p).1.length < fuel + 1 := by omega
      have hsame := ih (fun loc hloc => hfiles loc (hinside.trail_subset _ hloc))
        (hplain.above hinside) hfuel'
      rw [ensureDirectories_inside hroot hplain hinside rfl hname,
        ensureDirectories_inside hother (hplain.congr hstart hfiles) hinside rfl hname]
      exact goOn_ensureDirectories_congr hroot hother hstart hfiles hinside
        (hplain.above hinside) hfuel' hsame

-- Once they were made, all that the path of directories passes are directories.
theorem directories_of_makeDirectories (hroot : tree.Rooted) (hplain : Plain tree p)
    (h : (tree.makeDirectories p).1 = .ok ()) :
    ∀ loc ∈ Path.trail tree.start p, (tree.makeDirectories p).2.kind? loc = some .directory := by
  obtain ⟨found, hwalks, hdir⟩ :=
    (ensureDirectories_leads hroot hplain (Nat.lt_succ_self p.length)).1 h
  have hstart := (makeDirectories_grown tree p).start_eq
  intro loc hloc
  rw [← hstart] at hloc
  exact kind?_of_walk (walks_iff.mp hwalks) hdir loc hloc

end Chains

end StateOwnership.FileTree
