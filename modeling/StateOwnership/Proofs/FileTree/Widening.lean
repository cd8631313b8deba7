import StateOwnership.Proofs.FileTree.Directories

/-!
# Making directories in a tree with more directories

Another user of a file tree may have made some of the directories that are about to be made. **Where
they can be made with these directories they can be made without them**, and what ends in a fault of
the path with them does so without them. Only the words about a file in the way may differ.
-/

namespace StateOwnership.FileTree

/-! ## 1. Trees with more directories -/

/-- A tree in which some places on the way of a path are directories where nothing was. -/
structure Widened (p : Text) (tree other : FileTree) : Prop where
  start_eq : other.start = tree.start
  kind?_eq : ∀ loc ∈ Path.trail tree.start p, other.kind? loc = tree.kind? loc ∨
    (tree.kind? loc = none ∧ other.kind? loc = some .directory)

/-- Making directories went on to the next one: the last one was made, or there is a file. -/
def GoesOn (result : Except Fault Unit) : Prop :=
  result = .ok () ∨ ∃ path, result = .error (.refused ⟨.fileExists, path⟩)

section Widening

variable {tree other : FileTree} {p parent name : Text} {kind : Kind}

theorem Widened.file_iff (h : Widened p tree other) :
    ∀ loc ∈ Path.trail tree.start p, other.kind? loc = some .file ↔ tree.kind? loc = some .file := by
  intro loc hloc
  rcases h.kind?_eq loc hloc with hsame | ⟨hnone, hdir⟩
  · rw [hsame]
  · simp [hnone, hdir]

theorem Widened.above (h : Widened p tree other) (hinside : Path.Inside p parent name) :
    Widened parent tree other :=
  ⟨h.start_eq, fun loc hloc => h.kind?_eq loc (hinside.trail_subset _ hloc)⟩

theorem Widened.same (h : Widened p tree other) {loc : Location}
    (hloc : loc ∈ Path.trail tree.start p) (hthere : tree.kind? loc ≠ none) :
    other.kind? loc = tree.kind? loc :=
  (h.kind?_eq loc hloc).resolve_right fun hnew => hthere hnew.1

theorem Widened.pathExists (h : Widened p tree other) (hthere : tree.pathExists p = true) :
    other.pathExists p = true := by
  obtain ⟨hcheck, found, hlocate⟩ := pathExists_ok hthere
  have hsame : other.locate p = tree.locate p :=
    locate_congr h.start_eq fun loc hloc => h.same hloc ((locate_ok hlocate).2 loc hloc)
  exact pathExists_of_locate hcheck (hsame.trans hlocate)

theorem Widened.leads (hroot : tree.Rooted) (hother : other.Rooted) (h : Widened p tree other)
    (hleads : tree.Leads p kind) : other.Leads p kind := by
  obtain ⟨found, hwalks, hkind⟩ := hleads
  have hwalk := walks_iff.mp hwalks
  obtain ⟨hend, hthere, -⟩ := walk_ok hwalk
  rw [Leads, h.start_eq]
  refine ⟨found, ?_, ?_⟩
  · rw [walks_iff, ← hwalk]
    exact walk_congr fun loc hloc => h.same hloc (hthere loc hloc)
  · have hself : found <+: follow (Path.origin tree.start p) (Path.components p) :=
      hend ▸ List.prefix_rfl
    rcases mem_passed_of_prefix hself with hmem | hprefix
    · rw [h.same hmem (by simp [hkind]), hkind]
    · have hdir := directory_of_prefix_origin hroot hprefix
      rw [hkind] at hdir
      rw [hdir]
      rw [← h.start_eq] at hprefix
      exact directory_of_prefix_origin hother hprefix

/-! ## 2. Where making directories goes on -/

theorem ensureDirectory_of_check {fault : Path.Fault} (h : Path.check p = .error fault) :
    tree.ensureDirectory p = (.error (.path fault), tree) := by
  simp [ensureDirectory, makeDirectory, h]

theorem check_of_makeDirectory {fault : Path.Fault}
    (h : tree.makeDirectory p = .error (.path fault)) : Path.check p = .error fault := by
  unfold makeDirectory at h
  cases hcheck : Path.check p with
  | error found =>
    simp only [hcheck] at h
    simpa using h
  | ok u =>
    simp only [hcheck] at h
    repeat' split at h
    all_goals simp [refuse] at h

theorem check_of_ensureDirectory {fault : Path.Fault}
    (h : (tree.ensureDirectory p).1 = .error (.path fault)) : Path.check p = .error fault := by
  cases hcheck : Path.check p with
  | error found =>
    rw [ensureDirectory_of_check hcheck] at h
    simpa using h
  | ok u =>
    exfalso
    unfold ensureDirectory at h
    split at h
    · simp at h
    · rename_i found hmake
      rw [check_of_makeDirectory hmake] at hcheck
      simp at hcheck
    · split at h <;> simp at h

theorem walk_ne_fileExists {place : Location} {names : List Text} :
    tree.walk place names ≠ .error .fileExists := by
  induction names generalizing place with
  | nil => simp [walk]
  | cons name rest ih =>
    rw [walk]
    split
    · exact ih
    · split
      · exact ih
      · split
        · simp
        · simp only
          split
          · simp
          · exact ih
          · split <;> simp

theorem slot_ne_fileExists : tree.slot p ≠ .error .fileExists := by
  unfold slot walkToDirectory
  simp only [reach_eq_walk]
  intro h
  split at h
  · simp at h
  split at h
  · simp at h
  split at h
  · rename_i cause hwalk
    obtain rfl : cause = .fileExists := by simpa using h
    split at hwalk
    · rename_i hcause
      rw [hwalk] at hcause
      exact walk_ne_fileExists hcause
    · split at hwalk <;> simp at hwalk
  · split at h <;> simp at h

-- A place for a new entry is in a directory.
theorem slot_parent {place : Location} {last : Option Text}
    (h : tree.slot p = .ok (place, last)) : Path.octetCount p ≤ pathLimit ∧
      tree.walk (Path.origin tree.start p) (Path.components p).dropLast = .ok place ∧
      tree.kind? place = some .directory := by
  unfold slot at h
  split at h
  · simp at h
  split at h
  · simp at h
  rename_i hlong
  simp only at h
  split at h
  · simp at h
  rename_i dir hdir
  obtain ⟨hwalk, hkind⟩ := walkToDirectory_ok hdir
  obtain rfl : dir = place := by
    split at h
    all_goals exact (Prod.mk.inj (Except.ok.inj h)).1
  exact ⟨Nat.le_of_not_lt hlong, hwalk, hkind⟩

-- If a directory that is to be made is made or found, or there is a file, the path that it is in
-- leads to a directory.
theorem leads_of_goesOn (hroot : tree.Rooted) (hinside : Path.Inside p parent name)
    (h : GoesOn (tree.ensureDirectory p).1) :
    tree.Leads parent .directory ∧ Path.octetCount p ≤ pathLimit := by
  have hp : p ≠ [] := by
    have hlength := hinside.length_lt
    rintro rfl
    simp at hlength
  have hthere (hdir : tree.isDirectory p = true) :
      tree.Leads parent .directory ∧ Path.octetCount p ≤ pathLimit := by
    obtain ⟨-, hlong, found, hwalks, -⟩ := (isDirectory_iff hroot hp).mp hdir
    rw [hinside.components_eq] at hwalks
    obtain ⟨above, habove, hkind⟩ := hwalks.parent hroot
    rw [hinside.origin_eq] at habove
    exact ⟨⟨above, habove, hkind⟩, hlong⟩
  by_cases hdir : tree.isDirectory p = true
  · exact hthere hdir
  cases hslot : tree.slot p with
  | ok found =>
    obtain ⟨place, last⟩ := found
    obtain ⟨hlong, hwalk, hkind⟩ := slot_parent hslot
    rw [hinside.components_eq, List.dropLast_concat, hinside.origin_eq, ← walks_iff] at hwalk
    exact ⟨⟨place, hwalk, hkind⟩, hlong⟩
  | error cause =>
    exfalso
    have hcause : tree.slot p ≠ .error .fileExists := slot_ne_fileExists
    rw [hslot] at hcause
    unfold ensureDirectory makeDirectory at h
    cases hcheck : Path.check p <;> simp_all [GoesOn, refuse]

theorem plain_of_leads (h : tree.Leads p .directory) (hlong : Path.octetCount p ≤ pathLimit) :
    Plain tree p := by
  obtain ⟨found, hwalks, hdir⟩ := h
  intro _
  refine ⟨hlong, fun loc hloc => ?_⟩
  rw [kind?_of_walk (walks_iff.mp hwalks) hdir loc hloc]
  simp

/-! ## 3. How making directories ends -/

/-- What the end of making directories in a tree with more directories says about the end in the tree
itself. -/
structure Follows (first second : Except Fault Unit) : Prop where
  goesOn : GoesOn second → GoesOn first
  ok : second = .ok () → first = .ok ()
  path : ∀ fault, second = .error (.path fault) → ∃ found, first = .error (.path found)

theorem Follows.of_eq {first second : Except Fault Unit} (h : second = first) :
    Follows first second := by
  subst h
  exact ⟨id, id, fun fault hfault => ⟨fault, hfault⟩⟩

-- A path cannot name a place because of its last name, which is then not the directory itself.
theorem ne_here_of_check (hinside : Path.Inside p parent name) (hparent : Path.check parent = .ok ())
    {fault : Path.Fault} (hcheck : Path.check p = .error fault) : name ≠ Path.here := by
  rintro rfl
  rw [Path.check_of_subset hparent hinside.subset] at hcheck
  simp at hcheck

theorem goOn_of_goesOn {result : Except Fault Unit} (h : GoesOn result) (made : FileTree) :
    goOn p name (result, made) =
      if name = Path.here then (.ok (), made) else made.ensureDirectory p := by
  rcases h with rfl | ⟨path, rfl⟩ <;> rfl

theorem goOn_of_check {first : Except Fault Unit × FileTree} (h : GoesOn first.1)
    {fault : Path.Fault} (hcheck : Path.check p = .error fault) (hname : name ≠ Path.here) :
    (goOn p name first).1 = .error (.path fault) := by
  obtain ⟨result, made⟩ := first
  rw [goOn_of_goesOn h, if_neg hname, ensureDirectory_of_check hcheck]

-- What goes on after the directories above were made, or fails as they do.
theorem goOn_cases (p name : Text) (first : Except Fault Unit × FileTree) :
    GoesOn first.1 ∨ ((goOn p name first).1 = first.1 ∧ ¬ GoesOn first.1) := by
  obtain ⟨(⟨cause, path⟩ | fault) | u, made⟩ := first
  · cases cause <;> simp [GoesOn, goOn]
  · simp [GoesOn, goOn]
  · exact .inl (.inl rfl)

-- Below what is there in the tree both trees end alike.
theorem ensureDirectory_eq_of_pathExists (hroot : tree.Rooted) (hother : other.Rooted)
    (h : Widened p tree other) (hinside : Path.Inside p parent name)
    (hthere : tree.pathExists parent = true) :
    (other.ensureDirectory p).1 = (tree.ensureDirectory p).1 := by
  obtain ⟨-, -, -, hdir | hfile⟩ := leads_of_pathExists hroot hthere
  · obtain ⟨above', hwalks', hkind'⟩ := (h.above hinside).leads hroot hother hdir
    obtain ⟨above, hwalks, hkind⟩ := hdir
    rw [← hinside.origin_eq] at hwalks hwalks'
    exact ensureDirectory_congr hroot hother h.start_eq h.file_iff hinside.components_eq hwalks
      hkind hwalks' hkind'
  · rw [ensureDirectory_below_file hroot hinside hfile,
      ensureDirectory_below_file hother hinside ((h.above hinside).leads hroot hother hfile)]

-- With the directory above there, the last one is made as it is where the one above was made first.
theorem follows_of_directory (hother : other.Rooted) (h : Widened p tree other)
    (hinside : Path.Inside p parent name) (hthere : other.pathExists parent = true)
    (hdir : other.Leads parent .directory) {first : Except Fault Unit × FileTree}
    (hsame : Plain tree parent → (goOn p name (.ok (), other)).1 = (goOn p name first).1) :
    Follows (goOn p name first).1 (other.ensureDirectory p).1 := by
  obtain ⟨-, hcheck, hlong, -⟩ := leads_of_pathExists hother hthere
  have hplain : Plain tree parent :=
    (plain_of_leads hdir hlong).congr h.start_eq.symm fun loc hloc => by
      rw [h.start_eq] at hloc
      exact ((h.above hinside).file_iff loc hloc).symm
  have hdone := hsame hplain
  rw [goOn_of_goesOn (.inl rfl)] at hdone
  by_cases hhere : name = Path.here
  · rw [if_pos hhere] at hdone
    refine ⟨fun _ => .inl hdone.symm, fun _ => hdone.symm, fun fault hfault => ?_⟩
    exact absurd hhere (ne_here_of_check hinside hcheck (check_of_ensureDirectory hfault))
  · rw [if_neg hhere] at hdone
    exact .of_eq hdone

-- With a file above nothing is made, and only a path that names no place is a fault in both trees.
theorem follows_of_file (hother : other.Rooted) (hinside : Path.Inside p parent name)
    (hthere : other.pathExists parent = true) (hfile : other.Leads parent .file)
    {first : Except Fault Unit × FileTree} (hgoes : GoesOn first.1) :
    Follows (goOn p name first).1 (other.ensureDirectory p).1 := by
  have hblocked : ¬ GoesOn (other.ensureDirectory p).1 := fun hgo =>
    hfile.ne (leads_of_goesOn hother hinside hgo).1
  refine ⟨fun hgo => absurd hgo hblocked, fun hok => absurd (.inl hok) hblocked,
    fun fault hfault => ?_⟩
  have hbad := check_of_ensureDirectory hfault
  have hcheck := (FileTree.pathExists_ok hthere).1
  exact ⟨fault, goOn_of_check hgoes hbad (ne_here_of_check hinside hcheck hbad)⟩

-- What goes on after directories that follow each other does so too, if the last one is made alike
-- where it can be made.
theorem goOn_follows {first second : Except Fault Unit × FileTree}
    (habove : Follows first.1 second.1)
    (hsame : GoesOn (second.2.ensureDirectory p).1 →
      (goOn p name second).1 = (goOn p name first).1) :
    Follows (goOn p name first).1 (goOn p name second).1 := by
  rcases goOn_cases p name second with hgoes | ⟨hdone, hstops⟩
  · have hgoes' := habove.goesOn hgoes
    obtain ⟨result, made⟩ := second
    obtain ⟨result', made'⟩ := first
    by_cases hhere : name = Path.here
    · rw [goOn_of_goesOn hgoes, goOn_of_goesOn hgoes', if_pos hhere, if_pos hhere]
      exact .of_eq rfl
    · rw [goOn_of_goesOn hgoes, if_neg hhere] at hsame ⊢
      refine ⟨fun hgo => hsame hgo ▸ hgo, fun hok => hsame (.inl hok) ▸ hok,
        fun fault hfault => ⟨fault, ?_⟩⟩
      exact goOn_of_check hgoes' (check_of_ensureDirectory hfault) hhere
  · rw [hdone]
    refine ⟨fun hgo => absurd hgo hstops, fun hok => absurd (.inl hok) hstops,
      fun fault hfault => ?_⟩
    obtain ⟨found, hfound⟩ := habove.path fault hfault
    rcases goOn_cases p name first with hgoes | ⟨hdone', -⟩
    · simp [hfound, GoesOn] at hgoes
    · exact ⟨found, hdone'.trans hfound⟩

-- **Making directories in a tree with more directories says how it ends in the tree itself.**
theorem ensureDirectories_follows (hroot : tree.Rooted) (hother : other.Rooted)
    (h : Widened p tree other) {fuel : Nat} (hfuel : p.length < fuel) :
    Follows (tree.ensureDirectories p fuel).1 (other.ensureDirectories p fuel).1 := by
  induction fuel generalizing p with
  | zero => exact absurd hfuel (Nat.not_lt_zero _)
  | succ fuel ih =>
    rcases splitLast_cases p with ⟨hnil, hslashes⟩ | ⟨hnil, -, hcomponents, -⟩ | ⟨hname, hinside⟩
    · apply Follows.of_eq
      rw [ensureDirectories_outside (.inr hnil), ensureDirectories_outside (.inr hnil),
        ensureDirectory_slashes hroot hslashes, ensureDirectory_slashes hother hslashes]
    · apply Follows.of_eq
      rw [ensureDirectories_outside (.inl hnil), ensureDirectories_outside (.inl hnil)]
      rw [← List.nil_append [_]] at hcomponents
      exact ensureDirectory_congr hroot hother h.start_eq h.file_iff hcomponents .nil
        (directory_of_prefix_origin hroot List.prefix_rfl) .nil
        (directory_of_prefix_origin hother List.prefix_rfl)
    · have hlength := hinside.length_lt
      have hfuel' : (splitLast p).1.length < fuel := by omega
      have habove := ih (h.above hinside) hfuel'
      -- Where the tree has no file above, going on ends alike.
      have hgoOn (hplain : Plain tree (splitLast p).1) :=
        goOn_ensureDirectories_congr hroot hother h.start_eq h.file_iff hinside hplain hfuel'
          (ensureDirectories_congr hroot hother h.start_eq (h.above hinside).file_iff hplain hfuel')
      rw [ensureDirectories_eq hinside rfl hname, ensureDirectories_eq hinside rfl hname]
      cases hthere : tree.pathExists (splitLast p).1 with
      | true =>
        rw [if_pos rfl, if_pos ((h.above hinside).pathExists hthere)]
        exact .of_eq (ensureDirectory_eq_of_pathExists hroot hother h hinside hthere)
      | false =>
        rw [if_neg (by simp)]
        cases hthere' : other.pathExists (splitLast p).1 with
        | true =>
          -- In the other tree what is above is there already.
          obtain ⟨fuel, rfl⟩ : ∃ less, fuel = less + 1 := ⟨fuel - 1, by omega⟩
          have hmade := ensureDirectories_of_pathExists hother hthere' fuel
          obtain ⟨hne, hcheck, hlong, hdir | hfile⟩ := leads_of_pathExists hother hthere'
          · have hdirectory := (isDirectory_iff hother hne).mpr ⟨hcheck, hlong, hdir⟩
            rw [ensureDirectory_of_isDirectory hdirectory] at hmade
            rw [hmade] at hgoOn
            rw [if_pos rfl]
            exact follows_of_directory hother h hinside hthere' hdir hgoOn
          · rw [ensureDirectory_of_file hother hthere' hfile] at hmade
            rw [hmade] at habove
            rw [if_pos rfl]
            exact follows_of_file hother hinside hthere' hfile (habove.goesOn (.inr ⟨_, rfl⟩))
        | false =>
          rw [if_neg (by simp)]
          apply goOn_follows habove
          -- The last name is made, or a file is found, in a directory only.
          intro hgo
          have hgrown := ensureDirectories_grown other (splitLast p).1 fuel
          obtain ⟨hleads, hlong⟩ := leads_of_goesOn (hgrown.kept.rooted hother) hinside hgo
          have hplain : Plain tree (splitLast p).1 :=
            (plain_of_leads hleads (hinside.octetCount_le.trans hlong)).congr
              (by rw [hgrown.start_eq, h.start_eq]) fun loc hloc => by
                rw [hgrown.start_eq, h.start_eq] at hloc
                rw [hgrown.file_iff, (h.above hinside).file_iff loc hloc]
          exact hgoOn hplain

/-! ## 4. Trees that are reached later -/

-- The directory of a path that leads somewhere is there.
theorem isDirectory_of_locate {directory name : Text} {found : Location} (hroot : tree.Rooted)
    (hne : directory ≠ []) (hname : Path.slash ∉ name)
    (hcheck : Path.check (Path.join directory name) = .ok ())
    (h : tree.locate (Path.join directory name) = .ok found) : tree.isDirectory directory = true := by
  have hrelative := Path.isAbsolute_of_no_slash hname
  obtain ⟨-, hlong, hwalks, -⟩ := leads_of_locate hroot h
  rw [Path.components_join hrelative, Path.origin_join hrelative] at hwalks
  obtain ⟨place, hplace⟩ : ∃ place,
      tree.Walks (Path.origin tree.start directory) (Path.components directory) place := by
    by_cases hnil : name = []
    · have hnone : Path.components name = [] := Path.components_of_slashes (by simp [hnil])
      rw [hnone, List.append_nil] at hwalks
      exact ⟨found, hwalks⟩
    · rw [Path.components_of_no_slash hnil hname] at hwalks
      exact hwalks.init
  refine (isDirectory_iff hroot hne).mpr ⟨?_, ?_, place, hplace, ?_⟩
  · refine Path.check_of_subset hcheck fun c hc => .inl ?_
    rw [Path.join, if_neg (by simp [hrelative])]
    split <;> simp [hc]
  · exact (Path.octetCount_le_join hrelative directory).trans hlong
  · have hself : place <+: follow (Path.origin tree.start directory) (Path.components directory) :=
      (walk_ok (walks_iff.mp hplace)).1 ▸ List.prefix_rfl
    rcases mem_passed_of_prefix hself with hmem | hprefix
    · exact directories_of_locate h hname place hmem
    · exact directory_of_prefix_origin hroot hprefix

-- A directory that is there need not be made.
theorem makeDirectories_of_isDirectory {directory : Text} (hroot : tree.Rooted)
    (hne : directory ≠ []) (h : tree.isDirectory directory = true) :
    tree.makeDirectories directory = (.ok (), tree) := by
  obtain ⟨hcheck, hlong, place, hplace, hdir⟩ := (isDirectory_iff hroot hne).mp h
  have hexists := pathExists_of_locate hcheck (locate_of_leads hne hlong hplace hdir)
  rw [makeDirectories, ensureDirectories_of_pathExists hroot hexists,
    ensureDirectory_of_isDirectory h]

-- **Directories can be made if a tree that keeps what is there has a path that leads through them.**
theorem makeDirectories_of_kept {directory name : Text} {found : Location} (hroot : tree.Rooted)
    (hkept : Kept tree other) (hne : directory ≠ []) (hname : Path.slash ∉ name)
    (hcheck : Path.check (Path.join directory name) = .ok ())
    (h : other.locate (Path.join directory name) = .ok found) :
    (tree.makeDirectories directory).1 = .ok () := by
  have hother := hkept.rooted hroot
  have hthere := isDirectory_of_locate hother hne hname hcheck h
  have hwidened : Widened directory tree other := by
    refine ⟨hkept.start_eq, fun loc hloc => ?_⟩
    by_cases hnone : tree.kind? loc = none
    · rw [← hkept.start_eq] at hloc
      exact .inr ⟨hnone, directories_of_locate h hname loc hloc⟩
    · exact .inl (hkept.kind?_eq loc hnone)
  refine (ensureDirectories_follows hroot hother hwidened (Nat.lt_succ_self _)).ok ?_
  exact congrArg Prod.fst (makeDirectories_of_isDirectory hother hne hthere)

end Widening
end StateOwnership.FileTree
