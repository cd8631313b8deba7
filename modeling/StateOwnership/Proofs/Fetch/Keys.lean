import StateOwnership.Fetch.Run
import StateOwnership.Proofs.World.Running

/-!
# Looking at keys

A key whose copy can be begun is passed over or its file is opened; either way its path leads to the
target of its text from then on. **No step of looking at keys takes away what is there, so every file
that was opened stays where its path leads**, up to the key at which the looking ends.
-/

namespace StateOwnership.Fetch

/-- The location of the copy of the object of a key, if relative paths start at `start`. -/
def Job.place (job : Job) (start : Location) (key : Text) : Location :=
  Path.target start (job.localPath key)

/-- The copy of the object of a key cannot be begun: its directory cannot be made, or its path names
no place. -/
def Blocked (job : Job) (key : Text) (files : FileTree) : Prop :=
  (files.makeDirectories (job.localCopy key).directory).1 ≠ .ok () ∨
    Path.check (job.localPath key) ≠ .ok ()

instance (job : Job) (key : Text) (files : FileTree) : Decidable (Blocked job key files) :=
  decidable_of_iff
    ((files.makeDirectories (job.localCopy key).directory).1.toBool = false ∨
      (Path.check (job.localPath key)).toBool = false)
    (or_congr (toBool_eq_false _) (toBool_eq_false _))

/-- The world after the directory of a key's copy was made, as far as it could be. -/
def begun (job : Job) (key : Text) (world : World) : World :=
  { world with files := (world.files.makeDirectories (job.localCopy key).directory).2 }

/-! ## 1. Steps -/

section Steps

variable {job : Job} {mapping next : Mapping} {key path directory : Text} {opened : List Transfer}
  {world after : World} {failure : Failure}

theorem makeDirectory_ok {u : Unit}
    (h : (makeDirectory job key directory).runIn world = (.ok u, after)) :
    (world.files.makeDirectories directory).1 = .ok () ∧
      after = { world with files := (world.files.makeDirectories directory).2 } := by
  simp only [makeDirectory, Action.runIn_bind, Action.runIn_files, Action.runIn_setFiles] at h
  rcases hmake : world.files.makeDirectories directory with ⟨(refusal | fault) | _, made⟩
  all_goals rw [hmake] at h
  · simp at h
  · simp at h
  · simp only [Action.runIn_pure, Prod.mk.injEq] at h
    exact ⟨rfl, h.2.symm⟩

theorem makeDirectory_error
    (h : (makeDirectory job key directory).runIn world = (.error failure, after)) :
    (world.files.makeDirectories directory).1 ≠ .ok () ∧
      after = { world with files := (world.files.makeDirectories directory).2 } := by
  simp only [makeDirectory, Action.runIn_bind, Action.runIn_files, Action.runIn_setFiles] at h
  rcases hmake : world.files.makeDirectories directory with ⟨(refusal | fault) | _, made⟩
  all_goals rw [hmake] at h
  · simp only [Action.runIn_failWith, Prod.mk.injEq] at h
    exact ⟨by simp, h.2.symm⟩
  · simp only [Action.runIn_throw, Prod.mk.injEq] at h
    exact ⟨by simp, h.2.symm⟩
  · simp at h

theorem openCopy_ok {t : Transfer}
    (h : (openCopy job opened key path).runIn world = (.ok t, after)) :
    ∃ place made, world.files.openFile path true = .ok (place, made) ∧
      t = ⟨key, path, place, none⟩ ∧ after = { world with files := made } := by
  simp only [openCopy, Action.runIn_bind, Action.runIn_files] at h
  rcases hopen : world.files.openFile path true with (refusal | fault) | ⟨place, made⟩
  · rw [hopen] at h
    simp only [Action.runIn_bind, Action.runIn_failWith] at h
    split at h <;> simp at h
  · simp [hopen] at h
  · simp only [hopen, Action.runIn_bind, Action.runIn_setFiles, Action.runIn_pure, Prod.mk.injEq,
      Except.ok.injEq] at h
    exact ⟨place, made, rfl, h.1.symm, h.2.symm⟩

-- An open that fails removes what was opened before, unless the path names no place.
theorem openCopy_error (h : (openCopy job opened key path).runIn world = (.error failure, after)) :
    (Path.check path ≠ .ok () ∧ after = world) ∨
      (Path.check path = .ok () ∧ after = ((discard opened).runIn world).2) := by
  simp only [openCopy, Action.runIn_bind, Action.runIn_files] at h
  rcases hopen : world.files.openFile path true with (refusal | fault) | ⟨place, made⟩
  · right
    have hcheck := FileTree.check_of_openFile_refused hopen
    rw [hopen] at h
    simp only [Action.runIn_bind, Action.runIn_failWith] at h
    refine ⟨hcheck, ?_⟩
    rcases hdiscard : (discard opened).runIn world with ⟨result, final⟩
    rw [hdiscard] at h
    cases result <;> simp_all
  · left
    simp only [hopen, Action.runIn_throw, Prod.mk.injEq] at h
    exact ⟨FileTree.check_of_openFile_path hopen, h.2.symm⟩
  · simp only [hopen, Action.runIn_bind, Action.runIn_setFiles, Action.runIn_pure] at h
    simp at h

/-- What looking at a key does if it does not fail. -/
inductive Looked (job : Job) (mapping : Mapping) (key : Text) (world : World) :
    Mapping → World → Prop where
  | passedOver (message : Text)
      (hmade : (world.files.makeDirectories (job.localCopy key).directory).1 = .ok ())
      (hthere : (begun job key world).files.pathExists (job.localPath key) = true)
      (hkeep : job.options.overwrite = false) :
      Looked job mapping key world
        ⟨mapping.filenames.insert (job.localPath key) (job.backend.reference key),
          mapping.skipped ++ [key], mapping.transfers⟩
        ((begun job key world).record ⟨Log.debug, Log.fetchSource, message⟩)
  | opened {place : Location} {made : FileTree}
      (hmade : (world.files.makeDirectories (job.localCopy key).directory).1 = .ok ())
      (hopen : (begun job key world).files.openFile (job.localPath key) true = .ok (place, made))
      (hnew : job.options.overwrite = false →
        (begun job key world).files.pathExists (job.localPath key) = false) :
      Looked job mapping key world
        ⟨mapping.filenames.insert (job.localPath key) (job.backend.reference key),
          mapping.skipped, mapping.transfers ++ [⟨key, job.localPath key, place, none⟩]⟩
        { begun job key world with files := made }

theorem mapKey_ok (h : (mapKey job mapping key).runIn world = (.ok next, after)) :
    Looked job mapping key world next after := by
  simp only [mapKey] at h
  obtain ⟨_, between, hmake, h⟩ := Action.bind_ok.mp h
  obtain ⟨hmade, hbetween⟩ := makeDirectory_ok hmake
  obtain rfl : between = begun job key world := hbetween
  simp only [Action.runIn_bind, Action.runIn_files] at h
  split at h
  · rename_i hskip
    simp only [Bool.and_eq_true, Bool.not_eq_true'] at hskip
    simp only [Action.runIn_bind, Action.runIn_record, Action.runIn_pure, Prod.mk.injEq,
      Except.ok.injEq] at h
    obtain ⟨rfl, rfl⟩ := h
    exact .passedOver _ hmade hskip.1 hskip.2
  · rename_i hopen
    obtain ⟨t, final, hopened, h⟩ := Action.bind_ok.mp h
    obtain ⟨place, made, hfile, rfl, rfl⟩ := openCopy_ok hopened
    simp only [Action.runIn_pure, Prod.mk.injEq, Except.ok.injEq] at h
    obtain ⟨rfl, rfl⟩ := h
    refine .opened hmade hfile fun hkeep => ?_
    simpa [hkeep, Job.localPath] using hopen

-- Looking at a key that fails removes what was opened before, unless the key is blocked.
theorem mapKey_error (h : (mapKey job mapping key).runIn world = (.error failure, after)) :
    (Blocked job key world.files ∧ after = begun job key world) ∨
      (¬ Blocked job key world.files ∧
        after = ((discard mapping.transfers).runIn (begun job key world)).2) := by
  simp only [mapKey] at h
  rcases Action.bind_error.mp h with hmake | ⟨_, between, hmake, h⟩
  · obtain ⟨hmade, hafter⟩ := makeDirectory_error hmake
    exact .inl ⟨.inl hmade, hafter⟩
  · obtain ⟨hmade, hbetween⟩ := makeDirectory_ok hmake
    obtain rfl : between = begun job key world := hbetween
    simp only [Action.runIn_bind, Action.runIn_files] at h
    split at h
    · simp only [Action.runIn_bind, Action.runIn_record, Action.runIn_pure] at h
      simp at h
    · rcases Action.bind_error.mp h with hopen | ⟨t, final, -, h⟩
      · rcases openCopy_error hopen with ⟨hcheck, rfl⟩ | ⟨hcheck, hafter⟩
        · exact .inl ⟨.inr hcheck, rfl⟩
        · refine .inr ⟨?_, hafter⟩
          rintro (hdir | hpath)
          · exact hdir hmade
          · exact hpath hcheck
      · simp at h

end Steps

/-! ## 2. Keys in order -/

/-- Keys were looked at one after the other, and none of them failed. -/
inductive Surveyed (job : Job) : List Text → Mapping → World → Mapping → World → Prop where
  | nil {mapping : Mapping} {world : World} : Surveyed job [] mapping world mapping world
  | cons {key : Text} {rest : List Text} {mapping next final : Mapping}
      {world between after : World} (hfirst : Looked job mapping key world next between)
      (hrest : Surveyed job rest next between final after) :
      Surveyed job (key :: rest) mapping world final after

/-- Where the looking at keys ends: what came of the keys before, the keys that are left, and the
world at that time. If there are keys left, the first of them is the one that fails. -/
structure Survey where
  mapping : Mapping
  left : List Text
  world : World

/-- Looks at keys up to the first that fails. -/
def survey (job : Job) (mapping : Mapping) (world : World) : List Text → Survey
  | [] => ⟨mapping, [], world⟩
  | key :: rest =>
    match (mapKey job mapping key).runIn world with
    | (.ok next, after) => survey job next after rest
    | (.error _, _) => ⟨mapping, key :: rest, world⟩

section Surveys

variable {job : Job} {mapping next : Mapping} {keys : List Text} {world after : World}
  {failure : Failure}

-- The keys that are not left were looked at without failure.
theorem survey_surveyed (job : Job) (mapping : Mapping) (world : World) (keys : List Text) :
    ∃ seen, keys = seen ++ (survey job mapping world keys).left ∧
      Surveyed job seen mapping world (survey job mapping world keys).mapping
        (survey job mapping world keys).world := by
  induction keys generalizing mapping world with
  | nil => exact ⟨[], rfl, .nil⟩
  | cons key rest ih =>
    rw [survey]
    rcases hrun : (mapKey job mapping key).runIn world with ⟨failure | next, after⟩
    · exact ⟨[], rfl, .nil⟩
    · obtain ⟨seen, hkeys, hseen⟩ := ih next after
      exact ⟨key :: seen, by simpa using hkeys, .cons (mapKey_ok hrun) hseen⟩

theorem mapKeys_ok (h : (mapKeys job mapping keys).runIn world = (.ok next, after)) :
    survey job mapping world keys = ⟨next, [], after⟩ := by
  induction keys generalizing mapping world with
  | nil =>
    simp only [mapKeys, Action.runIn_pure, Prod.mk.injEq, Except.ok.injEq] at h
    rw [survey, h.1, h.2]
  | cons key rest ih =>
    obtain ⟨middle, between, hfirst, hrest⟩ := Action.bind_ok.mp h
    rw [survey, hfirst]
    exact ih hrest

theorem mapKeys_surveyed (h : (mapKeys job mapping keys).runIn world = (.ok next, after)) :
    Surveyed job keys mapping world next after := by
  obtain ⟨seen, hseen, hsurveyed⟩ := survey_surveyed job mapping world keys
  rw [mapKeys_ok h, List.append_nil] at hseen
  rw [mapKeys_ok h, ← hseen] at hsurveyed
  exact hsurveyed

-- If looking at keys fails, it fails at the first key that is left.
theorem mapKeys_error (h : (mapKeys job mapping keys).runIn world = (.error failure, after)) :
    ∃ key rest, (survey job mapping world keys).left = key :: rest ∧
      (mapKey job (survey job mapping world keys).mapping key).runIn
        (survey job mapping world keys).world = (.error failure, after) := by
  induction keys generalizing mapping world with
  | nil => simp [mapKeys] at h
  | cons key rest ih =>
    rcases Action.bind_error.mp h with hfirst | ⟨middle, between, hfirst, hrest⟩
    · rw [survey, hfirst]
      exact ⟨key, rest, rfl, hfirst⟩
    · rw [survey, hfirst]
      exact ih hrest

end Surveys

/-! ## 3. What looking at keys keeps -/

/-- A file that was opened is where its path leads, and only directories are on the way. -/
structure Opened (files : FileTree) (t : Transfer) : Prop where
  check_eq : Path.check t.path = .ok ()
  locate_eq : files.locate t.path = .ok t.place
  place_mem : t.place ∈ Path.trail files.start t.path
  directories : ∀ loc ∈ Path.trail files.start t.path, loc ≠ t.place →
    files.kind? loc = some .directory
  kind?_eq : files.kind? t.place = some .file

theorem Opened.kept {files after : FileTree} {t : Transfer} (h : Opened files t)
    (hkept : FileTree.Kept files after) : Opened after t := by
  refine ⟨h.check_eq, hkept.locate h.locate_eq, ?_, ?_, ?_⟩
  · rw [hkept.start_eq]
    exact h.place_mem
  · intro loc hloc hne
    rw [hkept.start_eq] at hloc
    have hdir := h.directories loc hloc hne
    rw [hkept.kind?_eq loc (by simp [hdir]), hdir]
  · rw [hkept.kind?_eq t.place (by simp [h.kind?_eq]), h.kind?_eq]

theorem Opened.of_openFile {files made : FileTree} {path : Text} {place : Location}
    (h : files.openFile path true = .ok (place, made)) (key : Text) :
    Opened made ⟨key, path, place, none⟩ := by
  obtain ⟨hplace, hmem, hmade, -, hdirs⟩ := FileTree.openFile_ok h
  have hstart : made.start = files.start := by rw [hmade]; rfl
  have hkept := FileTree.kept_openFile h
  have hfile : made.kind? place = some .file := by
    have hroot : place ≠ [] := Path.ne_nil_of_mem_trail hmem
    simp [hmade, FileTree.kind?, FileTree.get?_set, hroot, FileTree.Entry.kind]
  have hdirs' : ∀ loc ∈ Path.trail files.start path, loc ≠ place →
      made.kind? loc = some .directory := by
    intro loc hloc hne
    have hdir := hdirs loc hloc hne
    rw [hkept.kind?_eq loc (by simp [hdir]), hdir]
  refine ⟨(FileTree.openFile_inv h).1, ?_, ?_, ?_, hfile⟩
  · exact FileTree.locate_of_openFile h hstart hdirs' hfile
  · rw [hstart]
    exact hmem
  · rw [hstart]
    exact hdirs'

section Keeping

variable {job : Job} {mapping next : Mapping} {key : Text} {keys : List Text}
  {world after : World}

theorem begun_grown (job : Job) (key : Text) (world : World) :
    FileTree.Grown (Path.trail world.files.start (job.localCopy key).directory) world.files
      (begun job key world).files :=
  FileTree.makeDirectories_grown _ _

theorem Looked.kept (h : Looked job mapping key world next after) :
    FileTree.Kept world.files after.files := by
  have hbegun := (begun_grown job key world).kept
  cases h with
  | passedOver message hmade hthere hkeep => exact hbegun.trans (World.Alike.record _ _).kept
  | opened hmade hopen hnew => exact hbegun.trans (FileTree.kept_openFile hopen)

theorem Looked.log_eq (h : Looked job mapping key world next after) :
    after.log = world.log ∧ after.ticks = world.ticks := by
  cases h <;> exact ⟨rfl, rfl⟩

-- A key that was looked at has a path that leads to the place of its copy.
theorem Looked.reached (h : Looked job mapping key world next after) :
    Path.check (job.localPath key) = .ok () ∧
      after.files.locate (job.localPath key) = .ok (job.place world.files.start key) := by
  have hstart := (begun_grown job key world).start_eq
  cases h with
  | passedOver message hmade hthere hkeep =>
    obtain ⟨hcheck, found, hfound⟩ := FileTree.pathExists_ok hthere
    refine ⟨hcheck, ?_⟩
    have htarget := (FileTree.locate_ok hfound).1
    rw [hstart] at htarget
    rw [Job.place, ← htarget]
    exact (World.Alike.record _ _).kept.locate hfound
  | opened hmade hopen hnew =>
    have hopened := Opened.of_openFile hopen key
    refine ⟨hopened.check_eq, ?_⟩
    rw [Job.place, ← hstart, ← (FileTree.openFile_ok hopen).1]
    exact hopened.locate_eq

theorem Surveyed.kept (h : Surveyed job keys mapping world next after) :
    FileTree.Kept world.files after.files := by
  induction h with
  | nil => exact .refl _
  | cons hfirst hrest ih => exact hfirst.kept.trans ih

theorem Surveyed.log_eq (h : Surveyed job keys mapping world next after) :
    after.log = world.log ∧ after.ticks = world.ticks := by
  induction h with
  | nil => exact ⟨rfl, rfl⟩
  | cons hfirst hrest ih =>
    exact ⟨ih.1.trans hfirst.log_eq.1, ih.2.trans hfirst.log_eq.2⟩

-- The paths of all keys that were looked at lead to the places of their copies.
theorem Surveyed.reached (h : Surveyed job keys mapping world next after) :
    ∀ key ∈ keys, Path.check (job.localPath key) = .ok () ∧
      after.files.locate (job.localPath key) = .ok (job.place world.files.start key) := by
  induction h with
  | nil => simp
  | cons hfirst hrest ih =>
    intro key hkey
    rcases List.mem_cons.mp hkey with rfl | hkey
    · obtain ⟨hcheck, hlocate⟩ := hfirst.reached
      exact ⟨hcheck, hrest.kept.locate hlocate⟩
    · rw [← hfirst.kept.start_eq]
      exact ih key hkey

-- The files that were opened are where their paths lead, and no transfer was submitted.
theorem Surveyed.opened (h : Surveyed job keys mapping world next after)
    (hbefore : ∀ t ∈ mapping.transfers, Opened world.files t ∧ t.delivery = none) :
    ∀ t ∈ next.transfers, Opened after.files t ∧ t.delivery = none := by
  induction h with
  | nil => exact hbefore
  | cons hfirst hrest ih =>
    apply ih
    have hold := fun t ht => (hbefore t ht).imp_left (Opened.kept · hfirst.kept)
    cases hfirst with
    | passedOver message hmade hthere hkeep => exact hold
    | opened hmade hopen hnew =>
      intro t ht
      rcases List.mem_append.mp ht with ht | ht
      · exact hold t ht
      · rw [List.mem_singleton.mp ht]
        exact ⟨Opened.of_openFile hopen _, rfl⟩

-- The owner of every path is noted in the order of the keys.
theorem Surveyed.filenames_eq (h : Surveyed job keys mapping world next after) :
    next.filenames = mapping.filenames.insertAll (keys.map fun key =>
      (job.localPath key, job.backend.reference key)) := by
  induction h with
  | nil => rfl
  | cons hfirst hrest ih =>
    rw [ih]
    cases hfirst <;> rfl

end Keeping
end StateOwnership.Fetch
