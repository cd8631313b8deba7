import StateOwnership.Proofs.Cache.Boundaries
import StateOwnership.Proofs.Cache.Skipping

/-!
# Validating first

What needs the configuration validates it before it does anything else. **If anything is missing
from the configuration, in whichever backend, nothing is done**: no service is asked, no file
changes but those of the log, and the cache stays as it is, options that are not set included. A
valid configuration only has its options set.
-/

namespace StateOwnership

/-! ## 1. What is missing -/

namespace Config

/-- A configuration without a destination or without backends, or with a backend that has no bucket
or no keys. -/
inductive Defective (config : Config) : Prop where
  | destination (h : config.destination = [])
  | backends (h : config.backends = [])
  | bucket (backend : Backend) (hmem : backend ∈ config.backends) (h : backend.bucket = [])
  | keys (backend : Backend) (hmem : backend ∈ config.backends) (h : backend.keys = [])

-- A defect is found wherever it stands, since a backend without one is passed over.
theorem checkBackends_error_iff (position : Nat) (backends : List Backend) :
    (∃ fault, checkBackends position backends = .error fault) ↔
      ∃ backend ∈ backends, backend.bucket = [] ∨ backend.keys = [] := by
  induction backends generalizing position with
  | nil => simp [checkBackends]
  | cons backend rest ih =>
    rw [checkBackends]
    split
    · rename_i hbucket
      simp [hbucket]
    · rename_i hbucket
      split
      · rename_i hkeys
        simp [hkeys]
      · rename_i hkeys
        simp [ih, hbucket, hkeys]

theorem validate_error_iff (config : Config) :
    (∃ fault, config.validate = .error fault) ↔ config.Defective := by
  have hcheck : (∃ fault, config.validate = .error fault) ↔
      ∃ fault, config.check = .error fault := by
    rw [validate]
    cases config.check <;> simp
  rw [hcheck, check]
  split
  · rename_i hdestination
    exact iff_of_true ⟨_, rfl⟩ (.destination hdestination)
  · rename_i hdestination
    split
    · rename_i hbackends
      exact iff_of_true ⟨_, rfl⟩ (.backends hbackends)
    · rename_i hbackends
      rw [checkBackends_error_iff]
      constructor
      · rintro ⟨backend, hmem, hbucket | hkeys⟩
        · exact .bucket backend hmem hbucket
        · exact .keys backend hmem hkeys
      · intro h
        cases h with
        | destination h => exact absurd h hdestination
        | backends h => exact absurd h hbackends
        | bucket backend hmem h => exact ⟨backend, hmem, .inl h⟩
        | keys backend hmem h => exact ⟨backend, hmem, .inr h⟩

theorem check_ok_of_not_defective {config : Config} (h : ¬ config.Defective) :
    config.check = .ok () := by
  cases hcheck : config.check with
  | ok _ => rfl
  | error fault => exact absurd (config.validate_error_iff.mp ⟨fault, by rw [validate, hcheck]⟩) h

end Config

/-! ## 2. Telling the log alone -/

/-- A world in which lines were written to the log and nothing else has happened. -/
structure World.Untouched (world after : World) : Prop where
  told : ∃ records, after = world.recordAll records
  calls_eq : after.calls = world.calls
  files : Log.Rewritten world.log.places world.files after.files
  eq_of_no_places : world.log.places = [] → after = world

namespace World.Untouched

variable {world between after : World}

theorem recordAll (world : World) (records : List Log.Record) :
    Untouched world (world.recordAll records) :=
  ⟨⟨records, rfl⟩, World.calls_recordAll _ _, (World.Alike.recordAll _ _).files,
    fun h => World.recordAll_of_no_places h _⟩

theorem refl (world : World) : Untouched world world := recordAll world []

theorem record (world : World) (r : Log.Record) : Untouched world (world.record r) :=
  recordAll world [r]

theorem trans (h : Untouched world between) (h' : Untouched between after) :
    Untouched world after := by
  obtain ⟨records, rfl⟩ := h.told
  obtain ⟨others, rfl⟩ := h'.told
  rw [← World.recordAll_append]
  exact recordAll world (records ++ others)

end World.Untouched

/-- An action that at most tells the log something, however it ends. -/
def Action.Tells {α : Type} (action : Action α) : Prop :=
  ∀ world, World.Untouched world (action.runIn world).2

namespace Action.Tells

variable {α β : Type} {action : Action α}

theorem pure (a : α) : Tells (Pure.pure a : Action α) := World.Untouched.refl

theorem throw (failure : Failure) : Tells (MonadExcept.throw failure : Action α) :=
  World.Untouched.refl

theorem files : Tells Action.files := World.Untouched.refl

theorem record (level : Log.Level) (source message : Text) :
    Tells (Action.record level source message) :=
  fun world => .record world _

theorem outcome (h : Tells action) : Tells (ExceptT.lift action.outcome) := h

theorem bind {next : α → Action β} (h : Tells action) (hnext : ∀ a, Tells (next a)) :
    Tells (action >>= next) := by
  intro world
  have hfirst := h world
  rw [runIn_bind]
  rcases hrun : action.runIn world with ⟨failure | a, between⟩ <;> rw [hrun] at hfirst
  · exact hfirst
  · exact hfirst.trans (hnext a between)

end Action.Tells

theorem State.tells_loadFile (arnless : List Text) (path : Text) :
    (loadFile arnless path).Tells := by
  refine .bind .files fun files => ?_
  cases ofFile files arnless path with
  | error failure => exact .throw failure
  | ok descriptors => exact .bind (.record _ _ _) fun _ => .pure descriptors

namespace Cache

theorem tells_recordTakeovers (takeovers : List Index.Takeover) :
    (recordTakeovers takeovers).Tells := by
  induction takeovers with
  | nil => exact .pure ()
  | cons t rest ih => exact .bind (.record _ _ _) fun _ => ih

theorem tells_loadCopy (arnless : List Text) (loading : Loading) (path owner : Text) :
    (loadCopy arnless loading path owner).Tells := by
  refine .bind (State.tells_loadFile arnless path).outcome fun result => ?_
  split
  · exact .bind (tells_recordTakeovers _) fun _ => .pure _
  · exact .bind (.record _ _ _) fun _ => .pure _
  · exact .throw _

theorem tells_loadCopies (arnless : List Text) (loading : Loading) (entries : List (Text × Text)) :
    (loadCopies arnless loading entries).Tells := by
  induction entries generalizing loading with
  | nil => exact .pure loading
  | cons entry rest ih => exact .bind (tells_loadCopy arnless loading _ _) ih

/-- **Loading reads**: whatever the copies hold and however it ends, it at most tells the log. -/
theorem tells_load (now : DateTime) (cache : Cache) : (load now cache).Tells :=
  .bind (tells_loadCopies _ _ _) fun _ => .bind (.record _ _ _) fun _ => .pure _

-- What is loaded is the same after lines were written to the log, if no copy is a file of the log.
theorem load_untouched (now : DateTime) {cache : Cache} {world after : World}
    (h : World.Untouched world after) (hapart : LogApart world cache.filenames.entries) :
    ((load now cache).runIn after).1 = ((load now cache).runIn world).1 := by
  obtain ⟨records, rfl⟩ := h.told
  obtain ⟨final, hload, -⟩ := load_run now hapart
  obtain ⟨final', hload', -⟩ := load_run now (hapart.alike (.recordAll world records))
  rw [hload, hload', takeAll_congr fun entry hentry =>
    FileTree.read_of_rewritten h.files (hapart entry hentry)]

/-! ## 3. Invalid configurations -/

def Attempt.index (attempt : Attempt) (now : DateTime) (cache : Cache) (world : World) :
    Except Failure Inventory × Cache × World :=
  (buildIndex attempt.cloud attempt.factory attempt.cancelAt attempt.schedule now).runOn cache world

/-- What comes of the operations on a cache whose configuration has a fault. Only a cache that is
not strict goes on after its pull, with what it has. -/
structure Barred (fault : Config.Fault) (cache : Cache) (world : World) : Prop where
  typeName_eq : fault.toError.typeName = "ConfigurationError"
  validate_eq : validate.runOn cache world = rejected fault cache world
  credentials_eq : ∀ cloud factory,
    (checkCredentials cloud factory).runOn cache world = rejected fault cache world
  mapping_eq : mapConfigured.runOn cache world = rejected fault cache world
  strict_pull_eq : cache.strict = true → ∀ attempt : Attempt,
    attempt.run cache world = rejected fault cache world
  strict_index_eq : cache.strict = true → ∀ (attempt : Attempt) (now : DateTime),
    attempt.index now cache world = rejected fault cache world
  lenient_pull_eq : cache.strict = false → ∀ attempt : Attempt,
    attempt.run cache world = (.ok [], cache, warned fault world)
  lenient_index_eq : cache.strict = false → ∀ (attempt : Attempt) (now : DateTime),
    attempt.index now cache world =
        (Step.ofAction (load now cache)).runOn cache (warned fault world) ∧
      (LogApart world cache.filenames.entries →
        (attempt.index now cache world).1 = ((load now cache).runIn world).1)
  untouched : ∀ operation : Operation, (∀ value, operation ≠ .setOverwrite value) →
    (operation.run cache world).1 = cache ∧
      World.Untouched world (operation.run cache world).2

section Invalid

variable {fault : Config.Fault} {cache : Cache}

-- Building an index goes on to load if the pull was passed over.
theorem Attempt.index_of_fault (h : cache.config.validate = .error fault) (attempt : Attempt)
    (now : DateTime) (world : World) : attempt.index now cache world =
      if cache.strict then rejected fault cache world
      else (Step.ofAction (load now cache)).runOn cache (warned fault world) := by
  have hpull := attempt.run_of_fault h world
  rw [Attempt.run] at hpull
  rw [Attempt.index, buildIndex, Step.runOn_bind, hpull]
  cases cache.strict <;> rfl

-- No operation does anything to the cache or to the world but say something to the log.
theorem Operation.run_of_fault (h : cache.config.validate = .error fault) (world : World)
    (operation : Operation) (hother : ∀ value, operation ≠ .setOverwrite value) :
    (operation.run cache world).1 = cache ∧
      World.Untouched world (operation.run cache world).2 := by
  have hwarned : World.Untouched world (warned fault world) := .record _ _
  cases operation with
  | validate =>
    rw [run, validate_of_fault h]
    exact ⟨rfl, .refl world⟩
  | checkCredentials cloud factory =>
    rw [run, Cache.checkCredentials, validate_bind_of_fault h]
    exact ⟨rfl, .refl world⟩
  | pull attempt =>
    rw [run, attempt.run_of_fault h]
    split
    · exact ⟨rfl, .refl world⟩
    · exact ⟨rfl, hwarned⟩
  | mapConfigured =>
    rw [run, Cache.mapConfigured, validate_bind_of_fault h]
    exact ⟨rfl, .refl world⟩
  | load now => exact ⟨rfl, tells_load now cache world⟩
  | buildIndex attempt now =>
    have hindex := attempt.index_of_fault h now world
    rw [Attempt.index] at hindex
    rw [run, hindex]
    split
    · exact ⟨rfl, .refl world⟩
    · exact ⟨rfl, hwarned.trans (tells_load now cache _)⟩
  | setOverwrite value => exact absurd rfl (hother value)

theorem barred_of_fault (h : cache.config.validate = .error fault) (world : World) :
    Barred fault cache world where
  typeName_eq := rfl
  validate_eq := validate_of_fault h world
  credentials_eq _ _ := validate_bind_of_fault h _ world
  mapping_eq := validate_bind_of_fault h _ world
  strict_pull_eq hstrict attempt := by rw [attempt.run_of_fault h, if_pos hstrict]
  strict_index_eq hstrict attempt now := by rw [attempt.index_of_fault h, if_pos hstrict]
  lenient_pull_eq hlenient attempt := by
    rw [attempt.run_of_fault h, if_neg (Bool.eq_false_iff.mp hlenient)]
  lenient_index_eq hlenient attempt now := by
    rw [attempt.index_of_fault h, if_neg (Bool.eq_false_iff.mp hlenient)]
    exact ⟨rfl, load_untouched now (.record _ _)⟩
  untouched := Operation.run_of_fault h world

end Invalid

/-! ## 4. Valid configurations -/

/-- What comes of validating a cache whose configuration is valid: options that are not set are set,
once. -/
structure Admitted (cache : Cache) (world : World) : Prop where
  set_eq : cache.config.options ≠ none → validate.runOn cache world = (.ok (), cache, world)
  unset_eq : cache.config.options = none → validate.runOn cache world =
    (.ok (), { cache with config := { cache.config with options := some .standard } },
      world.record ⟨Log.debug, Log.configSource, "No fetch options configured, using defaults"⟩)
  again_eq : ∀ later, validate.runOn (validate.runOn cache world).2.1 later =
    (.ok (), (validate.runOn cache world).2.1, later)

section Valid

variable {cache : Cache}

-- Validating a cache is validating its configuration.
theorem validate_of_validated {config : Config} {world after : World}
    (h : cache.config.validated.runIn world = (.ok config, after)) :
    validate.runOn cache world = (.ok (), { cache with config := config }, after) := by
  simp only [validate, Step.runOn_bind, Step.runOn_get, Step.runOn_ofAction, h, Step.runOn_modify]

-- Options that are set stay, and nothing is said.
theorem validate_of_set (hvalid : cache.config.check = .ok ()) (hset : cache.config.options ≠ none)
    (world : World) : validate.runOn cache world = (.ok (), cache, world) := by
  have hsame : cache.config.withOptions = cache.config := by
    obtain ⟨options, hoptions⟩ := Option.ne_none_iff_exists'.mp hset
    rw [Config.withOptions, Config.effectiveOptions, hoptions, Option.getD_some, ← hoptions]
  apply validate_of_validated
  rw [Config.validated, Config.validate, hvalid]
  simp only [if_neg hset, hsame]
  rfl

theorem validate_of_unset (hvalid : cache.config.check = .ok ())
    (hunset : cache.config.options = none) (world : World) : validate.runOn cache world =
      (.ok (), { cache with config := { cache.config with options := some .standard } },
        world.record
          ⟨Log.debug, Log.configSource, "No fetch options configured, using defaults"⟩) := by
  have hstandard : cache.config.withOptions = { cache.config with options := some .standard } := by
    rw [Config.withOptions, Config.effectiveOptions, hunset, Option.getD_none]
  apply validate_of_validated
  rw [Config.validated, Config.validate, hvalid, ← hstandard]
  simp only [if_pos hunset]
  rfl

theorem admitted_of_valid (hvalid : cache.config.check = .ok ()) (world : World) :
    Admitted cache world where
  set_eq hset := validate_of_set hvalid hset world
  unset_eq hunset := validate_of_unset hvalid hunset world
  again_eq later := by
    by_cases hunset : cache.config.options = none
    · rw [validate_of_unset hvalid hunset]
      refine validate_of_set ?_ (Option.some_ne_none _) later
      exact hvalid
    · rw [validate_of_set hvalid hunset]
      exact validate_of_set hvalid hunset later

end Valid

/-- **Every operation that needs the configuration validates it first.** If there is no destination,
no backend, or a backend without bucket or keys, then validating, checking credentials, mapping and,
if the cache is strict, pulling and indexing fail with one error; if the cache is not strict, a pull
brings nothing and indexing is loading. The cache stays as it is, options that are not set included,
and the log alone is told anything. If nothing is missing, validating sets options that are not set
and does nothing else, and nothing at all when it is done again. -/
theorem validation_gates (cache : Cache) (world : World) :
    ((∃ fault, cache.config.validate = .error fault) ↔ cache.config.Defective) ∧
      (∀ fault, cache.config.validate = .error fault → Barred fault cache world) ∧
      (¬ cache.config.Defective → Admitted cache world) :=
  ⟨cache.config.validate_error_iff, fun _ hfault => barred_of_fault hfault world,
    fun hsound => admitted_of_valid (Config.check_ok_of_not_defective hsound) world⟩

/-- A cache that knows the owner of `s`, whose second backend has the given keys and whose options
are not set. -/
def cacheWithKeys (strict : Bool) (keys : List Text) : Cache :=
  ⟨⟨"d", none, [⟨"b", ["a"], [], [], [], []⟩, ⟨"c", keys, [], [], [], []⟩]⟩, strict, 2,
    OrderedMap.ofList [("s", "o")]⟩

/-- Without keys in the second backend nothing is mapped, and a strict cache pulls nothing and loads
nothing. One that is not strict loads the copy that it knows. With keys the options are set, and set
once. -/
theorem gated_by_late_backend :
    let strict := cacheWithKeys true []
    let lenient := cacheWithKeys false []
    let sound := cacheWithKeys true ["k"]
    strict.config.Defective ∧ ¬ sound.config.Defective ∧
      mapConfigured.runOn strict mixedWorld = rejected (.noKeys "c") strict mixedWorld ∧
      lackingAttempt.index mixedWorld.now strict mixedWorld =
        rejected (.noKeys "c") strict mixedWorld ∧
      lackingAttempt.run lenient mixedWorld = (.ok [], lenient, mixedWorld) ∧
      (lackingAttempt.index mixedWorld.now lenient mixedWorld).1.map (·.index.ids) = .ok ["i"] ∧
      ((Operation.buildIndex lackingAttempt mixedWorld.now).run lenient mixedWorld).1 = lenient ∧
      (validate.runOn sound mixedWorld).2.1.config.options = some .standard ∧
      ∀ later, validate.runOn (validate.runOn sound mixedWorld).2.1 later =
        (.ok (), (validate.runOn sound mixedWorld).2.1, later) := by
  intro strict lenient sound
  have hapart : LogApart mixedWorld lenient.filenames.entries :=
    fun _ _ _ _ hmem => absurd hmem List.not_mem_nil
  obtain ⟨hdefective, hstrict, -⟩ := validation_gates strict mixedWorld
  obtain ⟨-, hlenient, -⟩ := validation_gates lenient mixedWorld
  obtain ⟨hsound, -, hadmitted⟩ := validation_gates sound mixedWorld
  have hbarred : Barred (.noKeys "c") strict mixedWorld := hstrict _ (by decide)
  have hpassed : Barred (.noKeys "c") lenient mixedWorld := hlenient _ (by decide)
  have hvalid : sound.config.validate = .ok sound.config.withOptions := by decide
  have hnone : ¬ sound.config.Defective := by
    rw [← hsound, hvalid]
    simp
  refine ⟨hdefective.mp ⟨.noKeys "c", by decide⟩, hnone, hbarred.mapping_eq,
    hbarred.strict_index_eq rfl _ _, ?_, ?_, ?_, ?_, (hadmitted hnone).again_eq⟩
  · rw [hpassed.lenient_pull_eq rfl, warned, (World.Untouched.record _ _).eq_of_no_places rfl]
  · rw [(hpassed.lenient_index_eq rfl _ _).2 hapart]
    decide +kernel
  · exact (hpassed.untouched _ (by simp)).1
  · rw [(hadmitted hnone).unset_eq rfl]

end Cache
end StateOwnership
