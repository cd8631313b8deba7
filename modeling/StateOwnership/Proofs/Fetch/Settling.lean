import StateOwnership.Proofs.Fetch.Batch

/-!
# What a successful fetch leaves at each location

Copies that stand at one location share a file. **With overwriting, their bodies are laid over each
other in the file; without it, the file is that of the first key, unless something was there
before.** The path of every key leads to the location of its copy in either case.
-/

namespace StateOwnership.Fetch

/-! ## 1. Bodies at a location -/

def Job.keysAt (job : Job) (start loc : Location) : List Text :=
  job.backend.keys.filter (job.place start · = loc)

def Job.body (cloud : Cloud) (job : Job) (key : Text) : Bytes :=
  (cloud.transfer job.backend.bucket key).body

/-- The bodies of the objects whose copies stand at a location, in the order of their keys. -/
def Job.bodiesAt (cloud : Cloud) (job : Job) (start loc : Location) : List Bytes :=
  (job.keysAt start loc).map (job.body cloud)

/-- A location is on the way of the directory of some key's copy. -/
def Job.LeadsThrough (job : Job) (start loc : Location) : Prop :=
  ∃ key ∈ job.backend.keys, loc ∈ Path.trail start (job.localCopy key).directory

instance (job : Job) (start loc : Location) : Decidable (job.LeadsThrough start loc) :=
  inferInstanceAs (Decidable (∃ key ∈ job.backend.keys, _))

/-- What an empty file holds after bodies were written to it in one batch: the long ones at once in
their order, then the short ones as their files are closed, the last one first. -/
def layered (bodies : List Bytes) : Bytes :=
  bodies.foldr (fun body old => FileTree.overlaid (keptBack body) old)
    (bodies.foldl (fun old body => FileTree.overlaid (writtenAtOnce body) old) [])

-- A body alone in its file is what the file holds.
theorem layered_singleton (body : Bytes) : layered [body] = body := by
  simp only [layered, List.foldr_cons, List.foldr_nil, List.foldl_cons, List.foldl_nil,
    FileTree.overlaid, keptBack, writtenAtOnce]
  split <;> simp

/-- What is at a location after a successful fetch. -/
def Job.settled (cloud : Cloud) (job : Job) (start loc : Location)
    (before : Option FileTree.Entry) : Option FileTree.Entry :=
  if job.options.overwrite ∧ job.keysAt start loc ≠ [] then
    some (.file (layered (job.bodiesAt cloud start loc)))
  else before.or
    (if job.LeadsThrough start loc then some .directory
      else (job.bodiesAt cloud start loc).head?.map .file)

section Settled

variable {cloud : Cloud} {job : Job} {start loc : Location} {before : Option FileTree.Entry}

theorem settled_of_overwrite (hanew : job.options.overwrite = true)
    (hkeys : job.keysAt start loc ≠ []) : job.settled cloud start loc before =
      some (.file (layered (job.bodiesAt cloud start loc))) := by
  rw [Job.settled, if_pos ⟨hanew, hkeys⟩]

theorem settled_of_keep (hkeep : job.options.overwrite = false) :
    job.settled cloud start loc before = before.or (if job.LeadsThrough start loc then
      some .directory else (job.bodiesAt cloud start loc).head?.map .file) := by
  rw [Job.settled, if_neg (by simp [hkeep])]

-- Where no copy stands, a fetch makes at most a directory.
theorem settled_of_no_key (hkeys : job.keysAt start loc = []) :
    job.settled cloud start loc before =
      before.or (if job.LeadsThrough start loc then some .directory else none) := by
  rw [Job.settled, if_neg (by simp [hkeys]), Job.bodiesAt, hkeys]
  rfl

end Settled

/-! ## 2. Keys at a location -/

/-- The keys whose files were opened at a location. -/
def Mapping.openedAt (mapping : Mapping) (loc : Location) : List Text :=
  (mapping.transfers.filter (·.place = loc)).map (·.key)

section Looking

variable {job : Job} {mapping next : Mapping} {key : Text} {keys : List Text}
  {world after : World} {loc : Location} {entry : FileTree.Entry}

-- What looking at a key does at a location: it opens the key's file there, or it makes at most a
-- directory there.
theorem Looked.effectAt (h : Looked job mapping key world next after) (hroot : world.files.Rooted)
    (hloc : loc ∉ world.log.places) :
    (job.place world.files.start key = loc ∧ after.files.get? loc = some (.file []) ∧
        next.openedAt loc = mapping.openedAt loc ++ [key] ∧
        (job.options.overwrite = false → world.files.get? loc = none)) ∨
      ((job.place world.files.start key = loc →
          job.options.overwrite = false ∧ after.files.get? loc ≠ none) ∧
        next.openedAt loc = mapping.openedAt loc ∧
        (after.files.get? loc = world.files.get? loc ∨
          loc ∈ Path.trail world.files.start (job.localCopy key).directory ∧
            world.files.get? loc = none ∧ after.files.get? loc = some .directory)) := by
  have hgrown := begun_grown job key world
  have hreached := h.reached.2
  have hkept := h.kept
  cases h with
  | passedOver message hmade hthere hkeep =>
    right
    have hrecord := (World.Alike.record (begun job key world)
      ⟨Log.debug, Log.fetchSource, message⟩).files
    have hsame := hrecord.get?_eq loc hloc
    refine ⟨?_, rfl, ?_⟩
    · rintro rfl
      refine ⟨hkeep, fun hnone => ?_⟩
      exact FileTree.kind?_of_locate (hkept.rooted hroot) hreached
        (FileTree.kind?_eq_none.mpr hnone)
    · rw [hsame]
      exact hgrown.get?_eq loc
  | @opened place made hmade hopen hnew =>
    obtain ⟨hplace, hmem, rfl, -, -⟩ := FileTree.openFile_ok hopen
    rw [hgrown.start_eq] at hplace hmem
    have hnotroot : place ≠ [] := Path.ne_nil_of_mem_trail hmem
    by_cases hhere : place = loc
    · left
      subst hhere
      refine ⟨hplace.symm, by simp [FileTree.get?_set, hnotroot], by simp [Mapping.openedAt], ?_⟩
      intro hkeep
      have hnone := FileTree.get?_of_openFile_new hopen (hnew hkeep)
      cases hbefore : world.files.get? place with
      | none => rfl
      | some entry =>
        rw [hgrown.get?_of_some hbefore] at hnone
        simp at hnone
    · right
      refine ⟨fun hkey => absurd (hplace.trans hkey) hhere, by simp [Mapping.openedAt, hhere], ?_⟩
      rw [FileTree.get?_set_of_ne hhere]
      exact hgrown.get?_eq loc

-- All that the directories of copies pass are directories once their keys were looked at.
theorem Surveyed.directories (h : Surveyed job keys mapping world next after) :
    ∀ key ∈ keys, ∀ loc ∈ Path.trail world.files.start (job.localCopy key).directory,
      after.files.kind? loc = some .directory := by
  intro key hkey loc hloc
  have hlocate := (h.reached key hkey).2
  rw [← h.kept.start_eq] at hloc
  exact FileTree.directories_of_locate hlocate (Path.fileName_no_slash _) loc hloc

-- With overwriting, all keys at a location are opened there.
theorem Surveyed.effect_of_overwrite (h : Surveyed job keys mapping world next after)
    (hroot : world.files.Rooted) (hloc : loc ∉ world.log.places)
    (hanew : job.options.overwrite = true) :
    next.openedAt loc =
        mapping.openedAt loc ++ keys.filter (job.place world.files.start · = loc) ∧
      (keys.filter (job.place world.files.start · = loc) ≠ [] →
        after.files.get? loc = some (.file [])) ∧
      (keys.filter (job.place world.files.start · = loc) = [] →
        after.files.get? loc = world.files.get? loc ∨
          world.files.get? loc = none ∧ after.files.get? loc = some .directory ∧
            ∃ key ∈ keys, loc ∈ Path.trail world.files.start (job.localCopy key).directory) := by
  induction h with
  | nil => simp
  | @cons key rest mapping middle final world between after hfirst hrest ih =>
    have hstart := hfirst.kept.start_eq
    obtain ⟨hopened, hsome, hnone⟩ := ih (hfirst.kept.rooted hroot) (hfirst.log_eq.1 ▸ hloc)
    rw [hstart] at hopened hsome hnone
    rcases hfirst.effectAt hroot hloc with ⟨hplace, hfile, hhere, -⟩ | ⟨hplace, hhere, heffect⟩
    · rw [List.filter_cons_of_pos (by simpa using hplace)]
      refine ⟨by rw [hopened, hhere, List.append_assoc, List.singleton_append], fun _ => ?_,
        by simp⟩
      -- If no later key opens the file again, it stays as this key opened it.
      by_cases hlater : rest.filter (job.place world.files.start · = loc) = []
      · rcases hnone hlater with hsame | ⟨hnew, -⟩
        · rw [hsame, hfile]
        · rw [hfile] at hnew
          simp at hnew
      · exact hsome hlater
    · -- With overwriting no key is passed over, so this one belongs elsewhere.
      have haway : job.place world.files.start key ≠ loc := by
        intro hkey
        have hkeep := (hplace hkey).1
        rw [hanew] at hkeep
        simp at hkeep
      rw [List.filter_cons_of_neg (by simpa using haway)]
      refine ⟨by rw [hopened, hhere], hsome, fun hlater => ?_⟩
      rcases heffect with hsame | ⟨htrail, hnew, hdir⟩
      · rw [← hsame]
        rcases hnone hlater with hlast | ⟨hnew, hdir, other, hother, htrail⟩
        · exact .inl hlast
        · exact .inr ⟨hnew, hdir, other, List.mem_cons_of_mem _ hother, htrail⟩
      · refine .inr ⟨hnew, ?_, key, by simp, htrail⟩
        rcases hnone hlater with hlast | ⟨hnew', -⟩
        · rw [hlast, hdir]
        · rw [hdir] at hnew'
          simp at hnew'

-- Without overwriting, nothing is opened where something is.
theorem Surveyed.effect_of_some (h : Surveyed job keys mapping world next after)
    (hroot : world.files.Rooted) (hloc : loc ∉ world.log.places)
    (hkeep : job.options.overwrite = false) (hsome : world.files.get? loc = some entry) :
    next.openedAt loc = mapping.openedAt loc ∧ after.files.get? loc = some entry := by
  induction h with
  | nil => exact ⟨rfl, hsome⟩
  | @cons key rest mapping middle final world between after hfirst hrest ih =>
    have hrest' := ih (hfirst.kept.rooted hroot) (hfirst.log_eq.1 ▸ hloc)
    rcases hfirst.effectAt hroot hloc with ⟨-, -, -, hnew⟩ | ⟨-, hhere, heffect⟩
    · rw [hnew hkeep] at hsome
      simp at hsome
    · have hbetween : between.files.get? loc = some entry := by
        rcases heffect with hsame | ⟨-, hnew, -⟩
        · rw [hsame, hsome]
        · rw [hnew] at hsome
          simp at hsome
      obtain ⟨hopened, hafter⟩ := hrest' hbetween
      exact ⟨hopened.trans hhere, hafter⟩

-- Without overwriting, the first key at a location where nothing is has its file opened there, if
-- the location has not become a directory before.
theorem Surveyed.effect_of_none (h : Surveyed job keys mapping world next after)
    (hroot : world.files.Rooted) (hloc : loc ∉ world.log.places)
    (hkeep : job.options.overwrite = false) (hnone : world.files.get? loc = none) :
    (∃ key, (keys.filter (job.place world.files.start · = loc)).head? = some key ∧
        next.openedAt loc = mapping.openedAt loc ++ [key] ∧
        after.files.get? loc = some (.file [])) ∨
      (next.openedAt loc = mapping.openedAt loc ∧ after.files.get? loc = some .directory ∧
        ∃ key ∈ keys, loc ∈ Path.trail world.files.start (job.localCopy key).directory) ∨
      (next.openedAt loc = mapping.openedAt loc ∧ after.files.get? loc = none ∧
        keys.filter (job.place world.files.start · = loc) = []) := by
  induction h with
  | nil => exact .inr (.inr ⟨rfl, hnone, rfl⟩)
  | @cons key rest mapping middle final world between after hfirst hrest ih =>
    have hstart := hfirst.kept.start_eq
    have hroot' := hfirst.kept.rooted hroot
    have hloc' : loc ∉ between.log.places := hfirst.log_eq.1 ▸ hloc
    rcases hfirst.effectAt hroot hloc with ⟨hplace, hfile, hhere, -⟩ | ⟨hplace, hhere, heffect⟩
    · obtain ⟨hopened, hafter⟩ := hrest.effect_of_some hroot' hloc' hkeep hfile
      refine .inl ⟨key, ?_, by rw [hopened, hhere], hafter⟩
      rw [List.filter_cons_of_pos (by simpa using hplace), List.head?_cons]
    · rcases heffect with hsame | ⟨htrail, -, hdir⟩
      · have haway : job.place world.files.start key ≠ loc := by
          intro hkey
          exact (hplace hkey).2 (hsame.trans hnone)
        have hrest' := ih hroot' hloc' (hsame.trans hnone)
        rw [hstart, hhere] at hrest'
        rw [List.filter_cons_of_neg (by simpa using haway)]
        rcases hrest' with hfirstKey | ⟨hopened, hdir, other, hother, htrail⟩ | hnothing
        · exact .inl hfirstKey
        · exact .inr (.inl ⟨hopened, hdir, other, List.mem_cons_of_mem _ hother, htrail⟩)
        · exact .inr (.inr hnothing)
      · obtain ⟨hopened, hafter⟩ := hrest.effect_of_some hroot' hloc' hkeep hdir
        exact .inr (.inl ⟨hopened.trans hhere, hafter, key, by simp, htrail⟩)

end Looking

/-! ## 3. Bodies written in a batch -/

section Writing

variable (cloud : Cloud) (bucket : Text)

-- A batch without a refusal has all its transfers submitted.
theorem sentOf_accepted {transfers : List Transfer} (h : (sentOf cloud bucket transfers).2 = none) :
    (sentOf cloud bucket transfers).1 = transfers.map (·.deliver cloud bucket) := by
  induction transfers with
  | nil => rfl
  | cons t rest ih =>
    rw [sentOf] at h ⊢
    split
    · rename_i e hsubmission hfault
      simp [hsubmission, hfault] at h
    · rename_i hsubmission
      rw [List.map_cons, ih]
      split at h
      · simp at h
      · exact h

theorem get?_submitted {transfers : List Transfer} (h : (sentOf cloud bucket transfers).2 = none)
    (files : FileTree) (loc : Location) :
    (submitted cloud bucket transfers files).get? loc =
      (transfers.filter (·.place = loc)).foldl (fun entry t =>
        entry.map (.overlaid (writtenAtOnce (cloud.transfer bucket t.key).body)))
        (files.get? loc) := by
  induction transfers generalizing files with
  | nil => rfl
  | cons t rest ih =>
    rw [sentOf] at h
    rw [submitted]
    split at h
    · simp at h
    · rw [ih h, FileTree.get?_overwriteStart]
      by_cases hplace : t.place = loc
      · rw [List.filter_cons_of_pos (by simpa using hplace), List.foldl_cons, if_pos hplace]
      · rw [List.filter_cons_of_neg (by simpa using hplace), if_neg hplace]

theorem get?_closeAll (transfers : List Transfer) (files : FileTree) (loc : Location) :
    (closeAll (transfers.map (·.deliver cloud bucket)) files).get? loc =
      (transfers.filter (·.place = loc)).foldr (fun t entry =>
        entry.map (.overlaid (keptBack (cloud.transfer bucket t.key).body))) (files.get? loc) := by
  induction transfers with
  | nil => rfl
  | cons t rest ih =>
    have hclose : (closeAll ((t :: rest).map (·.deliver cloud bucket)) files).get? loc =
        if t.place = loc then
          ((closeAll (rest.map (·.deliver cloud bucket)) files).get? loc).map
            (.overlaid (keptBack (cloud.transfer bucket t.key).body))
        else (closeAll (rest.map (·.deliver cloud bucket)) files).get? loc :=
      FileTree.get?_overwriteStart _ _ _ _
    rw [hclose, ih]
    by_cases hplace : t.place = loc
    · rw [List.filter_cons_of_pos (by simpa using hplace), List.foldr_cons, if_pos hplace]
    · rw [List.filter_cons_of_neg (by simpa using hplace), if_neg hplace]

end Writing

-- A batch lays the bodies of its transfers over each other in an empty file.
theorem get?_batch {cloud : Cloud} {job : Job} {mapping : Mapping} {loc : Location}
    (h : (sentOf cloud job.backend.bucket mapping.transfers).2 = none) (files : FileTree)
    (hempty : mapping.openedAt loc ≠ [] → files.get? loc = some (.file [])) :
    (closeAll (sentOf cloud job.backend.bucket mapping.transfers).1
        (submitted cloud job.backend.bucket mapping.transfers files)).get? loc =
      if mapping.openedAt loc = [] then files.get? loc
      else some (.file (layered ((mapping.openedAt loc).map (job.body cloud)))) := by
  rw [sentOf_accepted _ _ h, get?_closeAll, get?_submitted _ _ h]
  rw [Mapping.openedAt] at hempty ⊢
  generalize mapping.transfers.filter (·.place = loc) = here at *
  by_cases hhere : here = []
  · simp [hhere]
  rw [if_neg (by simpa using hhere), hempty (by simpa using hhere)]
  have hfoldl (transfers : List Transfer) (content : Bytes) :
      transfers.foldl (fun entry t => entry.map (.overlaid
          (writtenAtOnce (cloud.transfer job.backend.bucket t.key).body)))
          (some (FileTree.Entry.file content)) =
        some (.file ((transfers.map (·.key)).map (job.body cloud) |>.foldl
          (fun old body => FileTree.overlaid (writtenAtOnce body) old) content)) := by
    induction transfers generalizing content with
    | nil => rfl
    | cons t rest ih => exact ih _
  have hfoldr (transfers : List Transfer) (content : Bytes) :
      transfers.foldr (fun t entry => entry.map (.overlaid
          (keptBack (cloud.transfer job.backend.bucket t.key).body)))
          (some (FileTree.Entry.file content)) =
        some (.file ((transfers.map (·.key)).map (job.body cloud) |>.foldr
          (fun body old => FileTree.overlaid (keptBack body) old) content)) := by
    induction transfers with
    | nil => rfl
    | cons t rest ih =>
      rw [List.foldr_cons, ih]
      rfl
  rw [hfoldl, hfoldr]
  rfl

/-! ## 4. The whole fetch -/

section Fetching

variable {cloud : Cloud} {factory : Factory} {cancelAt : Option Nat} {job : Job}
  {mapping : Mapping} {world after : World} {loc : Location} {u : Unit}

-- A download that succeeds has submitted all its transfers, and closed their files.
theorem download_ok {transfers : List Transfer}
    (h : (download cloud factory job cancelAt transfers).runIn world = (.ok u, after)) :
    ∃ connection between, (connecting cloud factory job).runIn world = (.ok connection, between) ∧
      (sentOf cloud job.backend.bucket transfers).2 = none ∧
      after.files = closeAll (sentOf cloud job.backend.bucket transfers).1
        (submitted cloud job.backend.bucket transfers between.files) ∧
      after.log = between.log := by
  obtain ⟨connection, between, hconnect, h⟩ := Action.bind_ok.mp h
  obtain ⟨after', hsubmit, hfiles, hlog, -⟩ :=
    submit_run cloud job.backend.bucket transfers between
  simp only [Action.runIn_bind, hsubmit] at h
  obtain ⟨final, hfinally, rfl⟩ := Action.andFinally_eq h
  have hrun := Action.onFailure_ok hfinally
  have hfinish := finish_run job cancelAt (sentOf cloud job.backend.bucket transfers).1
    (sentOf cloud job.backend.bucket transfers).2 after'
  rw [hrun] at hfinish
  refine ⟨connection, between, Action.onFailure_ok hconnect, ?_, ?_, hfinish.2.trans hlog⟩
  · cases hrefused : (sentOf cloud job.backend.bucket transfers).2 with
    | none => rfl
    | some e =>
      rw [hrefused] at hrun
      simp [finish] at hrun
  · rw [← hfiles, ← hfinish.1]

-- A download that succeeds takes away nothing.
theorem download_kept {transfers : List Transfer}
    (h : (download cloud factory job cancelAt transfers).runIn (announced job transfers world) =
      (.ok u, after)) : FileTree.Kept world.files after.files := by
  obtain ⟨connection, between, hconnect, -, hfiles, -⟩ := download_ok h
  have hsubmitted := submitted_kept cloud job.backend.bucket transfers between.files
  have hclosed := closeAll_kept (sentOf cloud job.backend.bucket transfers).1
    (submitted cloud job.backend.bucket transfers between.files)
  refine (connecting_alike hconnect).kept.trans ?_
  rw [hfiles]
  exact (FileTree.Kept.of_kinds hsubmitted.1 hsubmitted.2).trans (.of_kinds hclosed.1 hclosed.2)

theorem collect_ok {transfers : List Transfer}
    (h : (collect job transfers).runIn world = (.ok u, after)) :
    ∀ t ∈ transfers, t.delivery.bind (·.fault) = none := by
  induction transfers with
  | nil => simp
  | cons t rest ih =>
    rw [collect] at h
    split at h
    · rename_i hfault
      exact List.forall_mem_cons.mpr ⟨hfault, ih h⟩
    · simp at h
    · simp at h

-- A download that succeeds has met no fault.
theorem download_faultless {transfers : List Transfer}
    (h : (download cloud factory job cancelAt transfers).runIn world = (.ok u, after)) :
    ∀ t ∈ transfers, (cloud.transfer job.backend.bucket t.key).fault = none := by
  obtain ⟨-, -, -, hsent, -⟩ := download_ok h
  obtain ⟨connection, between, -, h⟩ := Action.bind_ok.mp h
  obtain ⟨after', hsubmit, -⟩ := submit_run cloud job.backend.bucket transfers between
  simp only [Action.runIn_bind, hsubmit] at h
  obtain ⟨final, hfinally, rfl⟩ := Action.andFinally_eq h
  have hfinish := Action.onFailure_ok hfinally
  simp only [finish, hsent] at hfinish
  obtain ⟨v, waited, -, hcollect⟩ := Action.bind_ok.mp hfinish
  rw [sentOf_accepted _ _ hsent] at hcollect
  intro t ht
  exact collect_ok hcollect (t.deliver cloud job.backend.bucket) (List.mem_map_of_mem ht)

/-- What a fetch has done when it succeeds. -/
structure Settles (cloud : Cloud) (job : Job) (world after : World) : Prop where
  kept : FileTree.Kept world.files after.files
  log_eq : after.log = world.log
  reached : ∀ key ∈ job.backend.keys, Path.check (job.localPath key) = .ok () ∧
    after.files.locate (job.localPath key) = .ok (job.place world.files.start key)
  get?_eq : ∀ loc ∉ world.log.places,
    after.files.get? loc = job.settled cloud world.files.start loc (world.files.get? loc)

section Settling

variable {next : Mapping} {batch : FileTree}

-- Files that were opened are empty until their batch is filled.
theorem Surveyed.empty_of_opened (h : Surveyed job job.backend.keys .empty world next after)
    (hroot : world.files.Rooted) (hloc : loc ∉ world.log.places) (hopened : next.openedAt loc ≠ []) :
    after.files.get? loc = some (.file []) := by
  cases hover : job.options.overwrite with
  | true =>
    obtain ⟨hall, hfile, -⟩ := h.effect_of_overwrite hroot hloc hover
    apply hfile
    rwa [hall] at hopened
  | false =>
    cases hbefore : world.files.get? loc with
    | some entry => exact absurd (h.effect_of_some hroot hloc hover hbefore).1 hopened
    | none =>
      rcases h.effect_of_none hroot hloc hover hbefore with
        ⟨-, -, -, hfile⟩ | ⟨hnone, -⟩ | ⟨hnone, -⟩
      · exact hfile
      · exact absurd hnone hopened
      · exact absurd hnone hopened

theorem Surveyed.leadsThrough (h : Surveyed job job.backend.keys mapping world next after)
    (hthrough : job.LeadsThrough world.files.start loc) :
    after.files.get? loc = some .directory := by
  obtain ⟨key, hkey, htrail⟩ := hthrough
  exact FileTree.kind?_eq_directory.mp (h.directories key hkey loc htrail)

theorem Surveyed.settled_of_overwrite
    (h : Surveyed job job.backend.keys .empty world next after) (hroot : world.files.Rooted)
    (hloc : loc ∉ world.log.places) (hanew : job.options.overwrite = true) :
    (if next.openedAt loc = [] then after.files.get? loc
      else some (.file (layered ((next.openedAt loc).map (job.body cloud))))) =
      job.settled cloud world.files.start loc (world.files.get? loc) := by
  obtain ⟨hopened, -, hnone⟩ := h.effect_of_overwrite hroot hloc hanew
  have hopened : next.openedAt loc = job.keysAt world.files.start loc := hopened
  rw [hopened]
  by_cases hkeys : job.keysAt world.files.start loc = []
  · rw [if_pos hkeys, settled_of_no_key hkeys]
    rcases hnone hkeys with hsame | ⟨hnew, hdir, hthrough⟩
    · cases hbefore : world.files.get? loc with
      | some entry => rw [hsame, hbefore, Option.some_or]
      | none =>
        have haway : ¬ job.LeadsThrough world.files.start loc := by
          intro hthrough
          have hdir := h.leadsThrough hthrough
          rw [hsame, hbefore] at hdir
          simp at hdir
        rw [hsame, hbefore, if_neg haway, Option.none_or]
    · have hthrough : job.LeadsThrough world.files.start loc := hthrough
      rw [hnew, hdir, if_pos hthrough, Option.none_or]
  · rw [if_neg hkeys, Fetch.settled_of_overwrite hanew hkeys, Job.bodiesAt]

theorem Surveyed.settled_of_keep
    (h : Surveyed job job.backend.keys .empty world next after) (hroot : world.files.Rooted)
    (hloc : loc ∉ world.log.places) (hkeep : job.options.overwrite = false) :
    (if next.openedAt loc = [] then after.files.get? loc
      else some (.file (layered ((next.openedAt loc).map (job.body cloud))))) =
      job.settled cloud world.files.start loc (world.files.get? loc) := by
  have hempty : Mapping.empty.openedAt loc = [] := rfl
  rw [Fetch.settled_of_keep hkeep]
  cases hbefore : world.files.get? loc with
  | some entry =>
    obtain ⟨hopened, hafter⟩ := h.effect_of_some hroot hloc hkeep hbefore
    rw [if_pos (hopened.trans hempty), hafter, Option.some_or]
  | none =>
    rw [Option.none_or]
    rcases h.effect_of_none hroot hloc hkeep hbefore with
      ⟨key, hkey, hopened, hafter⟩ | ⟨hopened, hafter, hthrough⟩ | ⟨hopened, hafter, hkeys⟩
    · have haway : ¬ job.LeadsThrough world.files.start loc := by
        intro hthrough
        have hdir := h.leadsThrough hthrough
        rw [hafter] at hdir
        simp at hdir
      have hkey : (job.keysAt world.files.start loc).head? = some key := hkey
      rw [hopened, hempty, List.nil_append, if_neg (List.cons_ne_nil _ _), if_neg haway,
        List.map_singleton, layered_singleton, Job.bodiesAt, List.head?_map, hkey]
      rfl
    · have hthrough : job.LeadsThrough world.files.start loc := hthrough
      rw [if_pos (hopened.trans hempty), if_pos hthrough, hafter]
    · have haway : ¬ job.LeadsThrough world.files.start loc := by
        intro hthrough
        have hdir := h.leadsThrough hthrough
        rw [hafter] at hdir
        simp at hdir
      have hkeys : job.keysAt world.files.start loc = [] := hkeys
      rw [if_pos (hopened.trans hempty), if_neg haway, hafter, Job.bodiesAt, hkeys]
      rfl

-- Once the keys were looked at, filling their batch settles every location.
theorem Surveyed.settled (h : Surveyed job job.backend.keys .empty world next after)
    (hroot : world.files.Rooted) (hloc : loc ∉ world.log.places) :
    (if next.openedAt loc = [] then after.files.get? loc
      else some (.file (layered ((next.openedAt loc).map (job.body cloud))))) =
      job.settled cloud world.files.start loc (world.files.get? loc) := by
  cases hover : job.options.overwrite with
  | true => exact h.settled_of_overwrite hroot hloc hover
  | false => exact h.settled_of_keep hroot hloc hover

end Settling

/-- What a fetch does after it looked at its keys, if it succeeds: it changes contents alone, and
those as a batch does. -/
structure Filled (cloud : Cloud) (job : Job) (mapping : Mapping) (world after : World) : Prop where
  kept : FileTree.Kept world.files after.files
  log_eq : after.log = world.log
  get?_eq : ∀ loc ∉ world.log.places, after.files.get? loc =
    if mapping.openedAt loc = [] then world.files.get? loc
    else some (.file (layered ((mapping.openedAt loc).map (job.body cloud))))

theorem Filled.alike {final : World} (h : Filled cloud job mapping world after)
    (halike : World.Alike after final) : Filled cloud job mapping world final := by
  refine ⟨h.kept.trans halike.kept, halike.log_eq.trans h.log_eq, fun loc hloc => ?_⟩
  rw [halike.files.get?_eq loc (h.log_eq ▸ hloc), h.get?_eq loc hloc]

theorem download_filled
    (hempty : ∀ loc ∉ world.log.places, mapping.openedAt loc ≠ [] →
      world.files.get? loc = some (.file []))
    (h : (download cloud factory job cancelAt mapping.transfers).runIn
      (announced job mapping.transfers world) = (.ok u, after)) :
    Filled cloud job mapping world after := by
  obtain ⟨connection, between, hconnect, hsent, hfiles, hlog⟩ := download_ok h
  have halike := connecting_alike hconnect
  refine ⟨download_kept h, hlog.trans halike.log_eq, fun loc hloc => ?_⟩
  have hsame := halike.files.get?_eq loc hloc
  rw [hfiles, get?_batch hsent between.files fun hopened =>
    hsame.trans (hempty loc hloc hopened), hsame]

-- A fetch that succeeds has looked at all its keys and filled what it opened, if anything.
theorem fetch_inv {outcome : Outcome}
    (h : (fetch cloud factory cancelAt job).runIn world = (.ok outcome, after)) :
    ∃ mapping between last, Surveyed job job.backend.keys .empty world mapping between ∧
      outcome.filenames = mapping.filenames ∧ World.Alike last after ∧
      (mapping.transfers = [] ∧ last = between ∨
        ∃ u, (download cloud factory job cancelAt mapping.transfers).runIn
          (announced job mapping.transfers between) = (.ok u, last)) := by
  simp only [fetch] at h
  obtain ⟨mapping, between, hkeys, h⟩ := Action.bind_ok.mp h
  have hsurveyed := mapKeys_surveyed hkeys
  refine ⟨mapping, between, ?_⟩
  split at h
  · simp only [Action.runIn_bind, Action.runIn_record, Action.runIn_pure] at h
    rcases hdownload : (download cloud factory job cancelAt mapping.transfers).runIn
      (announced job mapping.transfers between) with ⟨failure | u, last⟩
    · unfold announced at hdownload
      rw [hdownload] at h
      simp at h
    · unfold announced at hdownload
      rw [hdownload] at h
      simp only [Prod.mk.injEq, Except.ok.injEq] at h
      rw [← h.1, ← h.2]
      exact ⟨last, hsurveyed, rfl, .record _ _, .inr ⟨u, rfl⟩⟩
  · rename_i hnone
    simp only [Action.runIn_bind, Action.runIn_record, Action.runIn_pure, Prod.mk.injEq,
      Except.ok.injEq] at h
    rw [← h.1, ← h.2]
    exact ⟨between, hsurveyed, rfl, .record _ _, .inl ⟨by simpa using hnone, rfl⟩⟩

-- A successful fetch names the owners that follow from the configuration.
theorem fetch_filenames {outcome : Outcome}
    (h : (fetch cloud factory cancelAt job).runIn world = (.ok outcome, after)) :
    outcome.filenames = job.filenames := by
  obtain ⟨mapping, between, last, hsurveyed, hnames, -, -⟩ := fetch_inv h
  rw [hnames, hsurveyed.filenames_eq]
  rfl

-- The path of every key leads to the place of its copy after a fetch that succeeds.
theorem fetch_reached {outcome : Outcome}
    (h : (fetch cloud factory cancelAt job).runIn world = (.ok outcome, after)) :
    ∀ key ∈ job.backend.keys, Path.check (job.localPath key) = .ok () ∧
      after.files.locate (job.localPath key) = .ok (job.place world.files.start key) := by
  obtain ⟨mapping, between, last, hsurveyed, -, hlast, hdownload⟩ := fetch_inv h
  have hkept : FileTree.Kept between.files last.files := by
    rcases hdownload with ⟨-, rfl⟩ | ⟨u, hdownload⟩
    · exact .refl _
    · exact download_kept hdownload
  intro key hkey
  obtain ⟨hcheck, hlocate⟩ := hsurveyed.reached key hkey
  exact ⟨hcheck, (hkept.trans hlast.kept).locate hlocate⟩

-- After its keys were looked at, a fetch that succeeds changes contents alone, and those as a batch
-- does that meets no fault.
theorem fetch_filled {outcome : Outcome} (hroot : world.files.Rooted)
    (h : (fetch cloud factory cancelAt job).runIn world = (.ok outcome, after)) :
    ∃ mapping between, Surveyed job job.backend.keys .empty world mapping between ∧
      Filled cloud job mapping between after ∧
      ∀ t ∈ mapping.transfers, (cloud.transfer job.backend.bucket t.key).fault = none := by
  obtain ⟨mapping, between, last, hsurveyed, -, hlast, hdownload⟩ := fetch_inv h
  refine ⟨mapping, between, hsurveyed, ?_⟩
  rcases hdownload with ⟨hnone, rfl⟩ | ⟨u, hdownload⟩
  · have hfilled : Filled cloud job mapping last last := by
      refine ⟨.refl _, rfl, fun loc hloc => ?_⟩
      rw [Mapping.openedAt, hnone]
      rfl
    exact ⟨hfilled.alike hlast, by simp [hnone]⟩
  · have hfilled := download_filled (fun loc hloc hopened =>
      hsurveyed.empty_of_opened hroot (hsurveyed.log_eq.1 ▸ hloc) hopened) hdownload
    exact ⟨hfilled.alike hlast, download_faultless hdownload⟩

/-- **A successful fetch settles every location** but those of the log. -/
theorem fetch_ok {outcome : Outcome} (hroot : world.files.Rooted)
    (h : (fetch cloud factory cancelAt job).runIn world = (.ok outcome, after)) :
    Settles cloud job world after := by
  obtain ⟨mapping, between, hsurveyed, hfilled, -⟩ := fetch_filled hroot h
  refine ⟨hsurveyed.kept.trans hfilled.kept, ?_, fetch_reached h, fun loc hloc => ?_⟩
  · rw [hfilled.log_eq, hsurveyed.log_eq.1]
  · rw [hfilled.get?_eq loc (hsurveyed.log_eq.1 ▸ hloc)]
    exact hsurveyed.settled hroot hloc

end Fetching
end StateOwnership.Fetch
