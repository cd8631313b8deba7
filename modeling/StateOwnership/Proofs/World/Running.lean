import StateOwnership.Fetch.Connect
import StateOwnership.Proofs.FileTree.Effects

/-!
# Running actions

An action runs step by step, and an action that ends well can be taken apart at each of its steps.
**What an action says to the log and to the services changes no kind of entry, and no content but
that of the log's files.**
-/

namespace StateOwnership

/-! ## 1. Steps -/

section Results

variable {ε ε' α β : Type}

theorem toBool_eq_false (result : Except ε Unit) : result.toBool = false ↔ result ≠ .ok () := by
  cases result <;> simp [Except.toBool]

theorem toBool_map (f : α → β) (result : Except ε α) :
    (result.map f).toBool = result.toBool := by
  cases result <;> rfl

theorem toBool_mapError (f : ε → ε') (result : Except ε α) :
    (result.mapError f).toBool = result.toBool := by
  cases result <;> rfl

end Results

namespace Action

variable {α β : Type} {world after : World} {failure : Failure}

@[simp] theorem runIn_pure (a : α) (world : World) :
    (pure a : Action α).runIn world = (.ok a, world) := rfl

@[simp] theorem runIn_throw (failure : Failure) (world : World) :
    (throw failure : Action α).runIn world = (.error failure, world) := rfl

@[simp] theorem runIn_failWith (e : Error) (world : World) :
    (failWith e : Action α).runIn world = (.error (.error e), world) := rfl

@[simp] theorem runIn_modify (change : World → World) (world : World) :
    (modify change : Action Unit).runIn world = (.ok (), change world) := rfl

@[simp] theorem runIn_files (world : World) : files.runIn world = (.ok world.files, world) := rfl

@[simp] theorem runIn_ticks (world : World) : ticks.runIn world = (.ok world.ticks, world) := rfl

@[simp] theorem runIn_setFiles (tree : FileTree) (world : World) :
    (setFiles tree).runIn world = (.ok (), { world with files := tree }) := rfl

@[simp] theorem runIn_changeFiles (change : FileTree → FileTree) (world : World) :
    (changeFiles change).runIn world = (.ok (), { world with files := change world.files }) := rfl

@[simp] theorem runIn_call (c : Call) (world : World) :
    (call c).runIn world = (.ok (), world.call c) := rfl

@[simp] theorem runIn_record (level : Log.Level) (source message : Text) (world : World) :
    (record level source message).runIn world =
      (.ok (), world.record ⟨level, source, message⟩) := rfl

theorem runIn_lift (m : StateM World α) (world : World) :
    runIn (ExceptT.lift m) world = (.ok (m.run world).1, (m.run world).2) := rfl

theorem runIn_bind (action : Action α) (next : α → Action β) (world : World) :
    (action >>= next).runIn world =
      match action.runIn world with
      | (.ok a, after) => (next a).runIn after
      | (.error failure, after) => (.error failure, after) := by
  unfold runIn ExceptT.run StateT.run
  simp only [bind, ExceptT.bind, ExceptT.mk, StateT.bind]
  rcases action world with ⟨result, after⟩
  cases result <;> rfl

-- Catching a failure runs the handler where the failure left off.
theorem runIn_tryCatch (action : Action α) (handler : Failure → Action α) (world : World) :
    (tryCatch action handler : Action α).runIn world =
      match action.runIn world with
      | (.ok a, after) => (.ok a, after)
      | (.error failure, after) => (handler failure).runIn after := by
  unfold runIn ExceptT.run StateT.run
  simp only [tryCatch, tryCatchThe, MonadExceptOf.tryCatch, ExceptT.tryCatch, ExceptT.mk, bind,
    StateT.bind]
  rcases action world with ⟨result, after⟩
  cases result <;> rfl

-- A sequence ends well if and only if both of its parts do.
theorem bind_ok {action : Action α} {next : α → Action β} {b : β} :
    (action >>= next).runIn world = (.ok b, after) ↔
      ∃ a between, action.runIn world = (.ok a, between) ∧
        (next a).runIn between = (.ok b, after) := by
  rw [runIn_bind]
  rcases action.runIn world with ⟨result, between⟩
  cases result <;> simp

-- A sequence fails if and only if its first part does, or its second part after it.
theorem bind_error {action : Action α} {next : α → Action β} :
    (action >>= next).runIn world = (.error failure, after) ↔
      action.runIn world = (.error failure, after) ∨
        ∃ a between, action.runIn world = (.ok a, between) ∧
          (next a).runIn between = (.error failure, after) := by
  rw [runIn_bind]
  rcases action.runIn world with ⟨result, between⟩
  cases result <;> simp

-- What is done on failure is not done if all goes well, and does not turn a failure into a success.
theorem runIn_onFailure (action : Action α) (remedy : Action Unit) (world : World) :
    (action.onFailure remedy).runIn world =
      match action.runIn world with
      | (.ok a, after) => (.ok a, after)
      | (.error failure, after) =>
        match remedy.runIn after with
        | (.ok _, final) => (.error failure, final)
        | (.error other, final) => (.error other, final) := by
  rw [onFailure, runIn_tryCatch]
  rcases action.runIn world with ⟨result, after⟩
  cases result with
  | ok a => rfl
  | error failure =>
    simp only [runIn_bind, runIn_throw]
    rcases remedy.runIn after with ⟨result, final⟩
    cases result <;> rfl

theorem onFailure_ok {action : Action α} {remedy : Action Unit} {a : α}
    (h : (action.onFailure remedy).runIn world = (.ok a, after)) :
    action.runIn world = (.ok a, after) := by
  rw [runIn_onFailure] at h
  rcases hrun : action.runIn world with ⟨problem | b, between⟩
  · rw [hrun] at h
    simp only at h
    split at h <;> simp at h
  · rw [hrun] at h
    exact h

theorem onFailure_error {action : Action α} {remedy : Action Unit}
    (h : (action.onFailure remedy).runIn world = (.error failure, after)) :
    ∃ problem between, action.runIn world = (.error problem, between) ∧
      after = (remedy.runIn between).2 := by
  rw [runIn_onFailure] at h
  rcases hrun : action.runIn world with ⟨problem | b, between⟩
  · refine ⟨problem, between, rfl, ?_⟩
    rw [hrun] at h
    simp only at h
    split at h
    all_goals
      rename_i hremedy
      simp only [Prod.mk.injEq] at h
      rw [hremedy, h.2]
  · rw [hrun] at h
    simp at h

theorem runIn_andFinally (action : Action α) (change : FileTree → FileTree) (world : World) :
    (action.andFinally change).runIn world =
      ((action.runIn world).1,
        { (action.runIn world).2 with files := change (action.runIn world).2.files }) := by
  show (action.andFinally change) world = _
  rw [andFinally]

theorem andFinally_eq {action : Action α} {change : FileTree → FileTree}
    {result : Except Failure α} (h : (action.andFinally change).runIn world = (result, after)) :
    ∃ between, action.runIn world = (result, between) ∧
      after = { between with files := change between.files } := by
  rw [runIn_andFinally, Prod.mk.injEq] at h
  exact ⟨_, Prod.ext h.1 rfl, h.2.symm⟩

end Action

/-! ## 2. What the log leaves alone -/

namespace Log

def Handler.place? (handler : Handler) : Option Location :=
  match handler.target with
  | .file place => some place
  | _ => none

/-- The locations of the files that the log is written to. -/
def Setup.places (setup : Setup) : List Location :=
  setup.handlers.filterMap Handler.place?

/-- A tree in which files at the given places have other contents. -/
structure Rewritten (places : List Location) (files after : FileTree) : Prop where
  start_eq : after.start = files.start
  kind?_eq : ∀ loc, after.kind? loc = files.kind? loc
  get?_eq : ∀ loc ∉ places, after.get? loc = files.get? loc

namespace Rewritten

theorem refl (places : List Location) (files : FileTree) : Rewritten places files files :=
  ⟨rfl, fun _ => rfl, fun _ _ => rfl⟩

theorem trans {places : List Location} {files between after : FileTree}
    (h : Rewritten places files between) (h' : Rewritten places between after) :
    Rewritten places files after :=
  ⟨h'.start_eq.trans h.start_eq, fun loc => (h'.kind?_eq loc).trans (h.kind?_eq loc),
    fun loc hloc => (h'.get?_eq loc hloc).trans (h.get?_eq loc hloc)⟩

end Rewritten

theorem Handler.write_rewritten (now : DateTime) (record : Record) (files : FileTree)
    {handler : Handler} {places : List Location} (h : ∀ place ∈ handler.place?, place ∈ places) :
    Rewritten places files (handler.write now record files) := by
  unfold Handler.write
  split
  · rename_i place htarget
    have hplace : place ∈ places := h place (by simp [place?, htarget])
    split
    · exact Rewritten.refl _ _
    · split
      · rename_i octets hoctets
        refine ⟨FileTree.start_append _ _ _, fun loc => FileTree.kind?_append _ _ _ _, ?_⟩
        intro loc hloc
        apply FileTree.get?_append_of_ne
        rintro rfl
        exact hloc hplace
      · exact Rewritten.refl _ _
  · exact Rewritten.refl _ _

-- A record reaches the files of the log and no other entry.
theorem Setup.write_rewritten (setup : Setup) (now : DateTime) (record : Record)
    (files : FileTree) : Rewritten setup.places files (setup.write now files record) := by
  have hall (handlers : List Handler) (hsub : handlers ⊆ setup.handlers) (files : FileTree) :
      Rewritten setup.places files (handlers.foldl (Handler.write now record) files) := by
    induction handlers generalizing files with
    | nil => exact Rewritten.refl _ _
    | cons handler rest ih =>
      have hfirst : Rewritten setup.places files (handler.write now record files) := by
        apply Handler.write_rewritten
        intro place hplace
        exact List.mem_filterMap.mpr ⟨handler, hsub (by simp), hplace⟩
      exact hfirst.trans (ih (fun h hmem => hsub (by simp [hmem])) _)
  unfold Setup.write
  split
  · exact hall setup.handlers (fun _ h => h) files
  · exact Rewritten.refl _ _

-- A log that is written to no file leaves the file tree alone.
theorem Setup.write_of_no_places {setup : Setup} (h : setup.places = []) (now : DateTime)
    (files : FileTree) (record : Record) : setup.write now files record = files := by
  have hall (handlers : List Handler) (hnone : ∀ handler ∈ handlers, handler.place? = none) :
      handlers.foldl (Handler.write now record) files = files := by
    induction handlers with
    | nil => rfl
    | cons handler rest ih =>
      have hfirst : handler.write now record files = files := by
        have hplace := hnone handler List.mem_cons_self
        unfold Handler.write
        split
        · rename_i place htarget
          simp [Handler.place?, htarget] at hplace
        · rfl
      rw [List.foldl_cons, hfirst]
      exact ih fun other hother => hnone other (List.mem_cons_of_mem _ hother)
  unfold Setup.write
  split
  · exact hall setup.handlers (List.filterMap_eq_nil_iff.mp h)
  · rfl

/-- The files that the log is written to are there. -/
def Setup.Opened (setup : Setup) (files : FileTree) : Prop :=
  ∀ place ∈ setup.places, files.get? place ≠ none

-- Once logging was set up the files of the log are there.
theorem opened_of_configure {setup after : Setup} {now : DateTime} {level : Level}
    {path : Option Text} {files made : FileTree}
    (h : configure setup now level path files = (.ok (), after, made)) : after.Opened made := by
  unfold configure at h
  rcases hfile : fileHandler level path files with fault | ⟨more, opened⟩
  · simp [hfile] at h
  simp only [hfile, Prod.mk.injEq, true_and] at h
  obtain ⟨rfl, rfl⟩ := h
  intro place hplace
  have hwritten := Setup.write_rewritten ⟨level, ⟨.console, level⟩ :: more, warning⟩ now
    (greeting level path) opened
  rw [Ne, ← FileTree.kind?_eq_none, hwritten.kind?_eq, FileTree.kind?_eq_none]
  have hmore : place ∈ more.filterMap Handler.place? := hplace
  unfold fileHandler at hfile
  split at hfile
  · obtain ⟨rfl, -⟩ := Prod.mk.inj (Except.ok.inj hfile)
    simp at hmore
  · obtain ⟨rfl, -⟩ := Prod.mk.inj (Except.ok.inj hfile)
    simp at hmore
  · split at hfile
    · simp at hfile
    · rename_i loc tree hopen
      obtain ⟨rfl, rfl⟩ := Prod.mk.inj (Except.ok.inj hfile)
      obtain rfl : place = loc := by simpa [Handler.place?] using hmore
      obtain ⟨content, hcontent⟩ := FileTree.get?_of_openFile hopen
      simp [hcontent]

end Log

-- Reading a path gives the same in a tree in which other files have other contents.
theorem FileTree.read_of_rewritten {places : List Location} {files after : FileTree} {p : Text}
    (h : Log.Rewritten places files after)
    (hapart : ∀ loc, files.locate p = .ok loc → loc ∉ places) : after.read p = files.read p := by
  have hlocate : after.locate p = files.locate p :=
    locate_congr h.start_eq fun loc _ => h.kind?_eq loc
  unfold read
  rw [hlocate]
  cases hfound : files.locate p with
  | error cause => rfl
  | ok loc =>
    simp only [h.get?_eq loc (hapart loc hfound)]

/-- A world that differs from another one in what was said to the log and to the services alone. -/
structure World.Alike (world after : World) : Prop where
  files : Log.Rewritten world.log.places world.files after.files
  log_eq : after.log = world.log
  ticks_eq : after.ticks = world.ticks

theorem World.recordAll_append (world : World) (records others : List Log.Record) :
    world.recordAll (records ++ others) = (world.recordAll records).recordAll others :=
  List.foldl_append

theorem World.calls_recordAll (world : World) (records : List Log.Record) :
    (world.recordAll records).calls = world.calls := by
  induction records generalizing world with
  | nil => rfl
  | cons r rest ih => exact ih (world.record r)

-- Without a log file nothing comes of what is said to the log.
theorem World.recordAll_of_no_places {world : World} (h : world.log.places = [])
    (records : List Log.Record) : world.recordAll records = world := by
  induction records with
  | nil => rfl
  | cons r rest ih =>
    have hfirst : world.record r = world := by
      rw [World.record, Log.Setup.write_of_no_places h]
    rw [World.recordAll, List.foldl_cons, hfirst]
    exact ih

namespace World.Alike

variable {world between after : World}

theorem refl (world : World) : Alike world world := ⟨.refl _ _, rfl, rfl⟩

theorem trans (h : Alike world between) (h' : Alike between after) : Alike world after :=
  ⟨h.files.trans (h.log_eq ▸ h'.files), h'.log_eq.trans h.log_eq, h'.ticks_eq.trans h.ticks_eq⟩

theorem kept (h : Alike world after) : FileTree.Kept world.files after.files :=
  .of_kinds h.files.start_eq h.files.kind?_eq

theorem record (world : World) (r : Log.Record) : Alike world (world.record r) :=
  ⟨Log.Setup.write_rewritten _ _ _ _, rfl, rfl⟩

theorem recordAll (world : World) (records : List Log.Record) :
    Alike world (world.recordAll records) := by
  induction records generalizing world with
  | nil => exact refl world
  | cons r rest ih => exact (record world r).trans (ih (world.record r))

-- A client touches no file but those of the log.
theorem ofClient {α : Type} (step : Client.Step α) (world : World) :
    Alike world ((Action.ofClient step).runIn world).2 := by
  unfold Action.ofClient Action.runIn
  simp only [ExceptT.run, StateT.run]
  rcases step (Client.State.fresh world.calls) with ⟨result, state⟩
  have hcalls : Alike world { world with calls := state.calls } := ⟨.refl _ _, rfl, rfl⟩
  exact hcalls.trans (recordAll _ state.records)

-- Connecting for a backend touches no file but those of the log.
theorem withClient {α : Type} (factory : Fetch.Factory) (attempt : Text) (backend : Backend)
    (step : Client → Client.Step α) (world : World) :
    Alike world ((Fetch.withClient factory attempt backend step).runIn world).2 := by
  have hcatch {action : Action α} (h : Alike world (action.runIn world).2)
      (reword : Failure → Failure) :
      Alike world ((tryCatch action fun failure => throw (reword failure) :
        Action α).runIn world).2 := by
    rw [Action.runIn_tryCatch]
    rcases hrun : action.runIn world with ⟨result, after⟩
    rw [hrun] at h
    cases result <;> exact h
  apply hcatch
  cases factory backend with
  | error e => exact refl world
  | ok client =>
    have hgreeting := record world ⟨Log.debug, Log.clientSource, client.greeting⟩
    simp only [Action.runIn_bind, Action.runIn_record]
    exact hgreeting.trans (ofClient _ _)

end World.Alike

/-! ## 3. A small world -/

/-- A cloud in which every object spells its key. -/
def spellingCloud : Cloud where
  session request := .ok request.region
  connection _ := none
  assumeRole _ _ := .error .noCredentials
  identity _ := .error .noCredentials
  transfer _ key := ⟨key.map fun c => UInt8.ofNat c.val, none, false, 0⟩

/-- A world with an empty working directory. -/
def sampleWorld : World :=
  .start (.fresh ["w"]) ⟨2024, 1, 15, 10, 30, 0, 0, none⟩

theorem rooted_sampleWorld : sampleWorld.files.Rooted :=
  FileTree.rooted_fresh _

end StateOwnership
