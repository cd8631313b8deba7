import StateOwnership.Cache.Load
import StateOwnership.Proofs.OrderedMap
import StateOwnership.Proofs.World.Running

/-!
# Loading copies

Loading looks at the copies in the order of their paths, and what it makes of a copy depends on the
content of its file alone. **Every copy is loaded or passed over, unless one of them fails in a way
that loading does not catch**: then loading fails with the first such failure. Every id goes
to the owner of the last copy that yields it.
-/

namespace StateOwnership

/-! ## 1. One copy -/

namespace State

/-- Whether a decoding yields a descriptor with an id. -/
def yields {ε : Type} (id : Text) : Except ε (List Descriptor) → Bool
  | .ok descriptors => (descriptors.map (·.id)).contains id
  | .error _ => false

-- A file that can be read is decoded as its content is.
theorem ofFile_of_read {files : FileTree} {path : Text} {octets : Bytes}
    (h : files.read path = .ok octets) (arnless : List Text) : ofFile files arnless path =
      (decodeBytes arnless octets).mapError (decodeFailure path) := by
  rw [ofFile, h]
  cases hdecode : decodeBytes arnless octets <;> simp [hdecode, Except.mapError]

-- Loading a state file gives what its content gives, and says so to the log if it can be decoded.
theorem loadFile_run (arnless : List Text) (path : Text) (world : World) :
    ∃ after, (loadFile arnless path).runIn world = (ofFile world.files arnless path, after) ∧
      World.Alike world after := by
  simp only [loadFile, Action.runIn_bind, Action.runIn_files]
  cases ofFile world.files arnless path with
  | error failure => exact ⟨world, rfl, .refl _⟩
  | ok descriptors => exact ⟨_, rfl, .record _ _⟩

end State

namespace Cache

def Loading.take (loading : Loading) (path owner : Text) :
    Except Failure (List State.Descriptor) → Except Failure Loading
  | .ok descriptors => .ok (loading.add path owner (descriptors.map (·.id)))
  | .error (.error e) => .ok (loading.skip path e.message)
  | .error failure => .error failure

def Loading.takeAll (files : FileTree) (arnless : List Text) :
    Loading → List (Text × Text) → Except Failure Loading
  | loading, [] => .ok loading
  | loading, (path, owner) :: rest =>
    match loading.take path owner (State.ofFile files arnless path) with
    | .ok next => Loading.takeAll files arnless next rest
    | .error failure => .error failure

theorem recordTakeovers_run (takeovers : List Index.Takeover) (world : World) :
    ∃ after, (recordTakeovers takeovers).runIn world = (.ok (), after) ∧
      World.Alike world after := by
  induction takeovers generalizing world with
  | nil => exact ⟨world, rfl, .refl _⟩
  | cons t rest ih =>
    obtain ⟨after, hrun, halike⟩ := ih (world.record ⟨Log.debug, Log.indexSource, t.describe⟩)
    refine ⟨after, ?_, World.Alike.trans (.record _ _) halike⟩
    simp only [recordTakeovers, Action.runIn_bind, Action.runIn_record, hrun]

theorem loadCopy_run (arnless : List Text) (loading : Loading) (path owner : Text)
    (world : World) :
    ∃ after, (loadCopy arnless loading path owner).runIn world =
        (loading.take path owner (State.ofFile world.files arnless path), after) ∧
      World.Alike world after := by
  obtain ⟨loaded, hload, halike⟩ := State.loadFile_run arnless path world
  have houtcome : Action.runIn (ExceptT.lift (State.loadFile arnless path).outcome) world =
      (.ok (State.ofFile world.files arnless path), loaded) := by
    rw [Action.runIn_lift]
    show (Except.ok ((State.loadFile arnless path).runIn world).1,
      ((State.loadFile arnless path).runIn world).2) = _
    rw [hload]
  simp only [loadCopy, Action.runIn_bind, houtcome]
  rcases State.ofFile world.files arnless path with (e | _ | _ | _ | _ | _) | descriptors
  · exact ⟨_, rfl, halike.trans (.record _ _)⟩
  · exact ⟨_, rfl, halike⟩
  · exact ⟨_, rfl, halike⟩
  · exact ⟨_, rfl, halike⟩
  · exact ⟨_, rfl, halike⟩
  · exact ⟨_, rfl, halike⟩
  · simp only [Action.runIn_bind]
    obtain ⟨after, hrecord, hquiet⟩ := recordTakeovers_run (((loading.add path owner
      (descriptors.map (·.id))).builder.takeovers.drop loading.builder.takeovers.length)) loaded
    rw [hrecord]
    exact ⟨after, rfl, halike.trans hquiet⟩

/-! ## 2. Copies in order -/

/-- The log is written to no file that a path among the entries leads to. -/
def LogApart (world : World) (entries : List (Text × Text)) : Prop :=
  ∀ entry ∈ entries, ∀ loc, world.files.locate entry.1 = .ok loc → loc ∉ world.log.places

theorem LogApart.alike {world after : World} {entries : List (Text × Text)}
    (h : LogApart world entries) (halike : World.Alike world after) : LogApart after entries := by
  intro entry hentry loc hloc
  rw [FileTree.locate_congr halike.files.start_eq fun loc _ => halike.files.kind?_eq loc] at hloc
  rw [halike.log_eq]
  exact h entry hentry loc hloc

theorem takeAll_congr {files after : FileTree} {arnless : List Text}
    {entries : List (Text × Text)} (h : ∀ entry ∈ entries, after.read entry.1 = files.read entry.1)
    (loading : Loading) :
    loading.takeAll after arnless entries = loading.takeAll files arnless entries := by
  induction entries generalizing loading with
  | nil => rfl
  | cons entry rest ih =>
    obtain ⟨path, owner⟩ := entry
    have hfirst : State.ofFile after arnless path = State.ofFile files arnless path := by
      rw [State.ofFile, State.ofFile, h (path, owner) (by simp)]
    rw [Loading.takeAll, Loading.takeAll, hfirst]
    split
    · exact ih (fun entry hentry => h entry (List.mem_cons_of_mem _ hentry)) _
    · rfl

-- Loading copies gives what their contents give when it begins.
theorem loadCopies_run (arnless : List Text) (loading : Loading) {entries : List (Text × Text)}
    {world : World} (hapart : LogApart world entries) :
    ∃ after, (loadCopies arnless loading entries).runIn world =
        (loading.takeAll world.files arnless entries, after) ∧ World.Alike world after := by
  induction entries generalizing loading world with
  | nil => exact ⟨world, rfl, .refl _⟩
  | cons entry rest ih =>
    obtain ⟨path, owner⟩ := entry
    obtain ⟨between, hfirst, halike⟩ := loadCopy_run arnless loading path owner world
    have hapart' : LogApart world rest :=
      fun entry hentry => hapart entry (List.mem_cons_of_mem _ hentry)
    simp only [loadCopies, Loading.takeAll, Action.runIn_bind, hfirst]
    cases loading.take path owner (State.ofFile world.files arnless path) with
    | error failure => exact ⟨between, rfl, halike⟩
    | ok next =>
      obtain ⟨after, hrest, halike'⟩ := ih next (hapart'.alike halike)
      refine ⟨after, ?_, halike.trans halike'⟩
      simp only [hrest]
      rw [takeAll_congr fun entry hentry =>
        FileTree.read_of_rewritten halike.files (hapart' entry hentry)]

/-! ## 3. What is claimed -/

-- Claims of one owner go to that owner; other ids keep theirs.
theorem get?_claimAll (builder : Index.Builder) (ids : List Text) (owner id : Text) :
    (builder.claimAll ids owner).entries.get? id =
      if ids.contains id then some owner else builder.entries.get? id := by
  induction ids generalizing builder with
  | nil => rfl
  | cons first rest ih =>
    have hclaim : builder.claimAll (first :: rest) owner =
        (builder.claim owner first).claimAll rest owner := rfl
    rw [hclaim, ih, Index.Builder.claim, OrderedMap.get?_insert]
    by_cases hfirst : first = id
    · simp [hfirst]
    · simp [hfirst, Ne.symm hfirst]

section Taking

variable {files : FileTree} {arnless : List Text} {loading next final : Loading}
  {path owner : Text} {entries : List (Text × Text)}

-- A copy is claimed or passed over, if loading goes on.
theorem take_ok {result : Except Failure (List State.Descriptor)}
    (h : loading.take path owner result = .ok next) :
    (∃ descriptors, result = .ok descriptors ∧
        next = loading.add path owner (descriptors.map (·.id))) ∨
      ∃ e, result = .error (.error e) ∧ next = loading.skip path e.message := by
  rcases result with (e | _ | _ | _ | _ | _) | descriptors
  case ok => exact .inl ⟨descriptors, rfl, (Except.ok.inj h).symm⟩
  case error.error => exact .inr ⟨e, rfl, (Except.ok.inj h).symm⟩
  all_goals simp [Loading.take] at h

theorem takeAll_cons_ok
    (h : loading.takeAll files arnless ((path, owner) :: entries) = .ok final) :
    ∃ next, loading.take path owner (State.ofFile files arnless path) = .ok next ∧
      next.takeAll files arnless entries = .ok final := by
  rw [Loading.takeAll] at h
  split at h
  · rename_i next hnext
    exact ⟨next, hnext, h⟩
  · simp at h

-- A copy that is passed over for the first time is noted behind the others.
theorem skip_of_nodup {paths : List Text} (hnodup : (loading.skipped.keys ++ path :: paths).Nodup)
    (message : Text) :
    (loading.skip path message).skipped.entries = loading.skipped.entries ++ [(path, message)] ∧
      (loading.skip path message).skipped.keys = loading.skipped.keys ++ [path] := by
  have hnew : path ∉ loading.skipped.keys := fun hmem =>
    (List.nodup_append.mp hnodup).2.2 path hmem path List.mem_cons_self rfl
  refine ⟨OrderedMap.entries_insert_of_not_mem hnew message, ?_⟩
  rw [Loading.skip, OrderedMap.keys_insert, if_neg hnew]

-- The copies that are decoded are loaded, in order.
theorem filesLoaded_of_takeAll (h : loading.takeAll files arnless entries = .ok final) :
    final.filesLoaded = loading.filesLoaded ++
      (entries.filter fun entry => (State.ofFile files arnless entry.1).toBool).map Prod.fst := by
  induction entries generalizing loading with
  | nil =>
    obtain rfl := Except.ok.inj h
    simp
  | cons entry rest ih =>
    obtain ⟨path, owner⟩ := entry
    obtain ⟨next, hfirst, hrest⟩ := takeAll_cons_ok h
    rw [ih hrest]
    rcases take_ok hfirst with ⟨descriptors, hfile, rfl⟩ | ⟨e, hfile, rfl⟩
    · simp [hfile, Loading.add, Except.toBool]
    · simp [hfile, Loading.skip, Except.toBool]

-- The copies that are not decoded are passed over, in order.
theorem skipped_of_takeAll (h : loading.takeAll files arnless entries = .ok final)
    (hnodup : (loading.skipped.keys ++ entries.map Prod.fst).Nodup) :
    final.skipped.keys = loading.skipped.keys ++
      (entries.filter fun entry => !(State.ofFile files arnless entry.1).toBool).map Prod.fst := by
  induction entries generalizing loading with
  | nil =>
    obtain rfl := Except.ok.inj h
    simp
  | cons entry rest ih =>
    obtain ⟨path, owner⟩ := entry
    obtain ⟨next, hfirst, hrest⟩ := takeAll_cons_ok h
    rw [List.map_cons] at hnodup
    rcases take_ok hfirst with ⟨descriptors, hfile, rfl⟩ | ⟨e, hfile, rfl⟩
    · rw [ih hrest (hnodup.sublist ((List.sublist_cons_self _ _).append_left _))]
      simp [hfile, Loading.add, Except.toBool]
    · obtain ⟨-, hkeys⟩ := skip_of_nodup hnodup e.message
      rw [ih hrest (by simpa [hkeys] using hnodup), hkeys]
      simp [hfile, Except.toBool]

-- An id belongs to the owner of the last copy that yields it.
theorem get?_of_takeAll (h : loading.takeAll files arnless entries = .ok final) (id : Text) :
    final.builder.entries.get? id =
      ((entries.filter fun entry =>
          State.yields id (State.ofFile files arnless entry.1)).getLast?.map Prod.snd).or
        (loading.builder.entries.get? id) := by
  induction entries generalizing loading with
  | nil =>
    obtain rfl := Except.ok.inj h
    rfl
  | cons entry rest ih =>
    obtain ⟨path, owner⟩ := entry
    obtain ⟨next, hfirst, hrest⟩ := takeAll_cons_ok h
    rw [ih hrest]
    rcases take_ok hfirst with ⟨descriptors, hfile, rfl⟩ | ⟨e, hfile, rfl⟩
    · rw [Loading.add, get?_claimAll]
      by_cases hid : (descriptors.map (·.id)).contains id
      · rw [List.filter_cons_of_pos (by simpa [hfile, State.yields] using hid), if_pos hid,
          List.getLast?_cons]
        cases (rest.filter _).getLast? <;> rfl
      · rw [List.filter_cons_of_neg (by simpa [hfile, State.yields] using hid), if_neg hid]
    · rw [List.filter_cons_of_neg (by simp [hfile, State.yields])]
      rfl

end Taking

/-! ## 4. The whole of loading -/

/-- **Loading gives what the contents of the copies give when it begins.** -/
theorem load_run (now : DateTime) {cache : Cache} {world : World}
    (hapart : LogApart world cache.filenames.entries) :
    ∃ after, (load now cache).runIn world =
        ((Loading.none.takeAll world.files cache.config.effectiveOptions.arnlessTypes
          cache.filenames.entries).map (·.inventory now), after) ∧ World.Alike world after := by
  obtain ⟨between, hcopies, halike⟩ := loadCopies_run
    cache.config.effectiveOptions.arnlessTypes .none hapart
  simp only [load, Action.runIn_bind, hcopies]
  cases Loading.none.takeAll world.files cache.config.effectiveOptions.arnlessTypes
    cache.filenames.entries with
  | error failure => exact ⟨between, rfl, halike⟩
  | ok loading => exact ⟨_, rfl, halike.trans (.record _ _)⟩

end Cache
end StateOwnership
