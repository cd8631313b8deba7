import StateOwnership.Proofs.Fetch.Isolation

/-!
# How copies are laid out

The path of a copy names the destination, the bucket and the substituted key one behind the other,
whatever slashes stand between them, and its directory names all of that but what follows the last
slash of the key. **In normal form the path of a copy lies in the directory of its bucket**, unless
the substituted key has a component that stands for a parent.
-/

namespace StateOwnership

/-! ## 1. Normal forms -/

namespace Text

theorem not_mem_of_mem_splitOn {c : CodePoint} {t piece : Text} (h : piece ∈ splitOn c t) :
    c ∉ piece := by
  induction t generalizing piece with
  | nil =>
    obtain rfl : piece = [] := by simpa [splitOn] using h
    exact List.not_mem_nil
  | cons d rest ih =>
    rw [splitOn] at h
    split at h
    · rcases List.mem_cons.mp h with rfl | h
      · exact List.not_mem_nil
      · exact ih h
    · rename_i hd
      split at h
      · rename_i first others hsplit
        rcases List.mem_cons.mp h with rfl | h
        · have hfirst : c ∉ first := ih (by simp [hsplit])
          simpa using ⟨fun heq => hd heq.symm, hfirst⟩
        · exact ih (by simp [hsplit, h])
      · rename_i hsplit
        exact absurd hsplit (splitOn_ne_nil c rest)

end Text

namespace Path

/-- The names of a path: its components but those that stand for the directory itself. -/
def names (p : Text) : List Text :=
  (components p).filter (· ≠ here)

/-- A path in normal form: no component is empty or stands for the directory itself, and a parent is
taken together with the component that it leads out of. -/
def normalize (p : Text) : Text :=
  let whole := root p ++ Text.joinWith [slash] (cancelParents (isAbsolute p) (names p))
  if whole = [] then here else whole

/-- A path lies in a directory, by what the two texts say: it goes on behind the directory, and not
by way of a parent. -/
def LiesIn (p directory : Text) : Prop :=
  root p = root directory ∧ ∃ below, names p = names directory ++ below ∧ up ∉ below

section Normal

variable {p a b : Text} {kept others : List Text} {absolute : Bool}

theorem of_mem_names {name : Text} (h : name ∈ names p) :
    (name ≠ [] ∧ slash ∉ name) ∧ name ≠ here := by
  obtain ⟨hmem, hhere⟩ := List.mem_filter.mp h
  obtain ⟨hpiece, hne⟩ := List.mem_filter.mp hmem
  exact ⟨⟨by simpa using hne, Text.not_mem_of_mem_splitOn hpiece⟩, by simpa using hhere⟩

-- Joining names and taking them apart again gives the same names.
theorem components_joinWith {parts : List Text} (h : ∀ name ∈ parts, name ≠ [] ∧ slash ∉ name) :
    components (Text.joinWith [slash] parts) = parts := by
  induction parts with
  | nil => rfl
  | cons first rest ih =>
    obtain ⟨hne, hslash⟩ := h first List.mem_cons_self
    have hrest := ih fun name hname => h name (List.mem_cons_of_mem _ hname)
    cases rest with
    | nil => simpa [Text.joinWith] using components_of_no_slash hne hslash
    | cons second others =>
      have hjoined : Text.joinWith [slash] (first :: second :: others) =
          first ++ slash :: Text.joinWith [slash] (second :: others) := by
        simp [Text.joinWith, List.intercalate]
      rw [hjoined, components_append_slash, hrest, components_of_no_slash hne hslash]
      rfl

/-- The names kept so far, and one more: a parent leads out of the last one. -/
def keep (absolute : Bool) (kept : List Text) (name : Text) : List Text :=
  if name = up then
    match kept.getLast? with
    | none => if absolute then [] else [up]
    | some last => if last = up then kept ++ [up] else kept.dropLast
  else kept ++ [name]

theorem cancelParents_eq (absolute : Bool) (parts : List Text) :
    cancelParents absolute parts = parts.foldl (keep absolute) [] := rfl

theorem keep_subset (absolute : Bool) (kept : List Text) (name : Text) :
    keep absolute kept name ⊆ name :: kept := by
  unfold keep
  split
  · rename_i hup
    subst hup
    split
    · split <;> simp
    · split
      · simp
      · exact List.Subset.trans (List.dropLast_subset kept) (List.subset_cons_self _ _)
  · simp

theorem cancelParents_subset (absolute : Bool) (parts : List Text) :
    cancelParents absolute parts ⊆ parts := by
  have hkept (kept : List Text) : parts.foldl (keep absolute) kept ⊆ kept ++ parts := by
    induction parts generalizing kept with
    | nil => simp
    | cons name rest ih =>
      intro other hother
      have hmem := ih _ hother
      rcases List.mem_append.mp hmem with hmem | hmem
      · have hstep := keep_subset absolute kept name hmem
        simp only [List.mem_cons, List.mem_append] at hstep ⊢
        exact hstep.elim (fun h => .inr (.inl h)) .inl
      · simp [hmem]
  simpa [cancelParents_eq] using hkept []

-- Names that are no parents are kept as they are.
theorem cancelParents_append (absolute : Bool) (parts : List Text) (h : up ∉ others) :
    cancelParents absolute (parts ++ others) = cancelParents absolute parts ++ others := by
  rw [cancelParents_eq, List.foldl_append, ← cancelParents_eq]
  generalize cancelParents absolute parts = kept
  induction others generalizing kept with
  | nil => simp
  | cons name rest ih =>
    rw [List.mem_cons, not_or] at h
    have hkeep : keep absolute kept name = kept ++ [name] := if_neg fun heq => h.1 heq.symm
    rw [List.foldl_cons, hkeep, ih h.2, List.append_assoc]
    rfl

/-! ## 2. Roots -/

theorem takeWhile_slashes_append {run : Text} (hrun : ∀ c ∈ run, c = slash)
    (h : isAbsolute b = false) : (run ++ b).takeWhile (· == slash) = run := by
  have hall : ∀ c ∈ run, (c == slash) = true := fun c hc => by simp [hrun c hc]
  rw [List.takeWhile_append_of_pos hall]
  cases b with
  | nil => simp
  | cons c rest =>
    have hc : c ≠ slash := by
      rintro rfl
      simp [isAbsolute] at h
    simp [hc]

theorem root_cases (p : Text) : root p = [] ∨ root p = [slash] ∨ root p = [slash, slash] := by
  unfold root
  split <;> simp

theorem slashes_root (p : Text) : ∀ c ∈ root p, c = slash := by
  rcases root_cases p with hroot | hroot | hroot <;> simp [hroot]

theorem isAbsolute_eq (p : Text) : isAbsolute p = !(root p).isEmpty := by
  cases p with
  | nil => rfl
  | cons c rest =>
    by_cases hc : c = slash
    · simp only [isAbsolute, root, hc, List.head?_cons, List.takeWhile_cons, beq_self_eq_true,
        if_true, List.length_cons, decide_true]
      split <;> simp_all
    · simp [isAbsolute, root, hc]

-- A relative text behind the root of a path leaves the root as it is.
theorem root_append (p : Text) (h : isAbsolute b = false) : root (root p ++ b) = root p := by
  rw [root, takeWhile_slashes_append (slashes_root p) h]
  rcases root_cases p with hroot | hroot | hroot <;> rw [hroot]
  all_goals rfl

-- What is in a directory has the root of the path of that directory.
theorem root_join (h : isAbsolute b = false) (a : Text) : root (join a b) = root a := by
  have hwhole : a.takeWhile (· == slash) ++ a.dropWhile (· == slash) = a :=
    List.takeWhile_append_dropWhile
  have hslashes : ∀ c ∈ a.takeWhile (· == slash), c = slash := fun c hc => by
    simpa using List.mem_takeWhile_imp hc
  have hinner : isAbsolute (a.dropWhile (· == slash)) = false := isAbsolute_stripLeft a
  have hruns : (join a b).takeWhile (· == slash) = a.takeWhile (· == slash) := by
    rw [join, h, if_neg (by simp)]
    by_cases hall : a.dropWhile (· == slash) = []
    · -- The directory consists of slashes, so no further one is put behind it.
      rw [hall, List.append_nil] at hwhole
      have hend : a = [] || endsWithSlash a := by
        rcases List.eq_nil_or_concat a with rfl | ⟨init, last, rfl⟩
        · simp
        · have hlast : last = slash := hslashes last (by rw [hwhole]; simp)
          simp [endsWithSlash, hlast]
      rw [if_pos hend]
      nth_rewrite 1 [← hwhole]
      exact takeWhile_slashes_append hslashes h
    · have hbehind (behind : Text) :
          (a ++ behind).takeWhile (· == slash) = a.takeWhile (· == slash) := by
        nth_rewrite 1 [← hwhole]
        rw [List.append_assoc]
        refine takeWhile_slashes_append hslashes ?_
        obtain ⟨c, rest, hrest⟩ := List.exists_cons_of_ne_nil hall
        rw [hrest] at hinner ⊢
        exact hinner
      split
      · exact hbehind b
      · exact hbehind (slash :: b)
  rw [root, root, hruns]

/-! ## 3. Reading normal forms -/

theorem isAbsolute_joinWith {parts : List Text} (h : ∀ name ∈ parts, name ≠ [] ∧ slash ∉ name) :
    isAbsolute (Text.joinWith [slash] parts) = false := by
  cases parts with
  | nil => rfl
  | cons first rest =>
    obtain ⟨hne, hslash⟩ := h first List.mem_cons_self
    obtain ⟨more, hmore⟩ : ∃ more, Text.joinWith [slash] (first :: rest) = first ++ more := by
      cases rest <;> simp [Text.joinWith, List.intercalate]
    obtain ⟨c, others, rfl⟩ := List.exists_cons_of_ne_nil hne
    rw [hmore]
    simpa [isAbsolute] using fun hc : c = slash => hslash (by simp [hc])

-- What is left of the names of a path are names.
theorem of_mem_cancelParents {name : Text} (h : name ∈ cancelParents absolute (names p)) :
    (name ≠ [] ∧ slash ∉ name) ∧ name ≠ here :=
  of_mem_names (cancelParents_subset _ _ h)

-- A path in normal form has the root of the path.
theorem root_normalize (p : Text) : root (normalize p) = root p := by
  have hrelative : isAbsolute (Text.joinWith [slash]
      (cancelParents (isAbsolute p) (names p))) = false :=
    isAbsolute_joinWith fun name hname => (of_mem_cancelParents hname).1
  unfold normalize
  dsimp only
  split
  · rename_i hwhole
    rw [(List.append_eq_nil_iff.mp hwhole).1]
    rfl
  · exact root_append p hrelative

-- The names of a path in normal form are those that are left of the names of the path.
theorem names_normalize (p : Text) :
    names (normalize p) = cancelParents (isAbsolute p) (names p) := by
  have hjoined : components (Text.joinWith [slash] (cancelParents (isAbsolute p) (names p))) =
      cancelParents (isAbsolute p) (names p) :=
    components_joinWith fun name hname => (of_mem_cancelParents hname).1
  unfold normalize
  dsimp only
  split
  · rename_i hwhole
    rw [(List.append_eq_nil_iff.mp hwhole).2] at hjoined
    rw [← hjoined]
    rfl
  · rw [names, components_slashes_append (slashes_root p), hjoined, List.filter_eq_self]
    intro name hname
    simpa using (of_mem_cancelParents hname).2

theorem names_join (h : isAbsolute b = false) (a : Text) : names (join a b) = names a ++ names b := by
  rw [names, components_join h, List.filter_append]
  rfl

theorem LiesIn.trans {outer : Text} (h : LiesIn p a) (h' : LiesIn a outer) : LiesIn p outer := by
  obtain ⟨hroot, below, hnames, hbelow⟩ := h
  obtain ⟨hroot', below', hnames', hbelow'⟩ := h'
  refine ⟨hroot.trans hroot', below' ++ below, ?_, ?_⟩
  · rw [hnames, hnames', List.append_assoc]
  · simp [hbelow, hbelow']

-- A relative path without parents that is joined to a directory lies in it in normal form.
theorem liesIn_join (h : isAbsolute b = false) (hstays : up ∉ components b) (a : Text) :
    LiesIn (normalize (join a b)) (normalize a) := by
  have hnames : up ∉ names b := fun hmem => hstays (List.mem_filter.mp hmem).1
  refine ⟨by rw [root_normalize, root_normalize, root_join h], names b, ?_, hnames⟩
  rw [names_normalize, names_normalize, names_join h, cancelParents_append _ _ hnames,
    isAbsolute_eq, root_join h, ← isAbsolute_eq]

theorem prefix_join (h : isAbsolute b = false) (a : Text) : a <+: join a b := by
  rw [join, h, if_neg (by simp)]
  split <;> exact List.prefix_append _ _

-- The directory part of a path has the components of what stands up to its last slash.
theorem components_directory (p : Text) :
    components (directory p) = components (upToFileName p) := by
  have hparts : components (upToFileName p) ++ components (fileName p) = components p := by
    by_cases hnil : upToFileName p = []
    · have hwhole := upToFileName_append_fileName p
      rw [hnil, List.nil_append] at hwhole
      rw [hnil, hwhole]
      rfl
    · obtain ⟨init, hinit⟩ := upToFileName_eq_concat hnil
      nth_rewrite 3 [← upToFileName_append_fileName p]
      rw [hinit, components_concat_slash, List.append_assoc, List.singleton_append,
        components_append_slash]
  exact List.append_cancel_right ((components_directory_fileName p).trans hparts.symm)

end Normal
end Path

/-! ## 4. Copies -/

namespace Fetch

/-- **The path of a copy names the destination, the bucket and the substituted key**, and its
directory names all of that up to the last slash of the key. Both begin with the path of the bucket's
directory, and in normal form the path lies there if no component of the substituted key stands for a
parent. -/
theorem localCopy_layout {job : Job} (h : Path.isAbsolute job.backend.bucket = false) (key : Text) :
    let copy := job.localCopy key
    let bucket := Path.join job.destination job.backend.bucket
    let rewritten := job.options.substitute key
    Path.components copy.path = Path.components job.destination ++
        Path.components job.backend.bucket ++ Path.components rewritten ∧
      Path.components copy.directory = Path.components job.destination ++
        Path.components job.backend.bucket ++ Path.components (Path.upToFileName rewritten) ∧
      Path.components copy.path =
        Path.components copy.directory ++ Path.components (Path.fileName rewritten) ∧
      bucket <+: copy.directory ∧ bucket <+: copy.path ∧
      (Path.up ∉ Path.components rewritten →
        Path.LiesIn (Path.normalize copy.path) (Path.normalize bucket)) := by
  intro copy bucket rewritten
  have hinner := Path.isAbsolute_stripLeft (Path.directory rewritten)
  have hname := Path.isAbsolute_of_no_slash (Path.fileName_no_slash rewritten)
  have hdirectory : Path.components copy.directory = Path.components job.destination ++
      Path.components job.backend.bucket ++ Path.components (Path.upToFileName rewritten) := by
    calc Path.components copy.directory
        = Path.components bucket ++
            Path.components (Text.stripLeft Path.slash (Path.directory rewritten)) :=
          Path.components_join hinner bucket
      _ = Path.components bucket ++ Path.components (Path.upToFileName rewritten) := by
          rw [Path.components_stripLeft, Path.components_directory]
      _ = _ := by rw [Path.components_join h]
  have hwithin : bucket <+: copy.directory := Path.prefix_join hinner bucket
  refine ⟨components_localPath h key, hdirectory, Path.components_join hname copy.directory,
    hwithin, hwithin.trans (Path.prefix_join hname copy.directory), fun hstays => ?_⟩
  -- Neither the directory part of the key nor its file name has a parent among its components.
  rw [← Path.components_directory_fileName, List.mem_append, not_or] at hstays
  rw [← Path.components_stripLeft] at hstays
  exact (Path.liesIn_join hname hstays.2 copy.directory).trans
    (Path.liesIn_join hinner hstays.1 bucket)

/-- Slashes that are doubled, missing or at the start of a substituted key, and components that stand
for the directory itself, do not lead a copy out of the directory of its bucket. -/
theorem layout_of_doubled_slashes :
    let job : Job := ⟨⟨"b/.", [], [], [], [], []⟩, "../c//", ⟨[⟨"env:", []⟩], false, []⟩⟩
    let copy := job.localCopy "env://a//./t"
    Path.isAbsolute job.backend.bucket = false ∧ copy.path = ("../c//b/./a//./t" : Text) ∧
      Path.components copy.path = Path.components job.destination ++
        Path.components job.backend.bucket ++ Path.components "//a//./t" ∧
      Path.normalize copy.path = ("../c/b/a/t" : Text) ∧
      Path.LiesIn (Path.normalize copy.path)
        (Path.normalize (Path.join job.destination job.backend.bucket)) := by
  intro job copy
  have hrelative : Path.isAbsolute job.backend.bucket = false := by decide
  have hrewritten : job.options.substitute "env://a//./t" = "//a//./t" := by decide
  obtain ⟨hcomponents, -, -, -, -, hlies⟩ := localCopy_layout hrelative "env://a//./t"
  rw [hrewritten] at hcomponents hlies
  exact ⟨hrelative, by decide, hcomponents, by decide, hlies (by decide)⟩

end Fetch
end StateOwnership
