import StateOwnership.Proofs.Cache.Mapping
import StateOwnership.Proofs.Cache.Recovery
import StateOwnership.Proofs.Cache.Scheduling

/-!
# Maps that end at a backend

A pull forgets the owners of paths, and one that fails leaves those that it has learnt before. **In
whatever way a cache is used, the owners that it knows are those of the first backends of its
configuration, all keys of each**: a pull stops at a backend, and merges nothing if a failure escapes.
Nothing but pulling and mapping changes them, and nothing does if the configuration is invalid.
-/

namespace StateOwnership.Cache

/-! ## 1. The first backends -/

/-- The cache of the first backends of a configuration alone. -/
def upTo (cache : Cache) (count : Nat) : Cache :=
  { cache with config := { cache.config with backends := cache.config.backends.take count } }

theorem upTo_length (cache : Cache) : cache.upTo cache.config.backends.length = cache := by
  rw [upTo, List.take_length]

theorem configured_upTo (cache : Cache) (count : Nat) :
    (cache.upTo count).configured = ownersAfter ∅ (cache.jobs.take count) := by
  rw [configured_eq, jobs, jobs, ← List.map_take]
  rfl

-- The owners of paths depend on the destination, the backends and the substitutions alone.
theorem configured_upTo_congr {cache other : Cache}
    (hdestination : cache.config.destination = other.config.destination)
    (hbackends : cache.config.backends = other.config.backends)
    (hsubstitutions : cache.config.effectiveOptions.substitutions =
      other.config.effectiveOptions.substitutions) (count : Nat) :
    (cache.upTo count).configured = (other.upTo count).configured := by
  have hjob (backend : Backend) : (cache.job backend).filenames = (other.job backend).filenames := by
    simp only [Fetch.Job.filenames, Fetch.Job.localPath, Fetch.Job.localCopy, job,
      FetchOptions.substitute, hdestination, hsubstitutions]
  have hfold (cache : Cache) : ownersAfter ∅ (cache.jobs.take count) =
      ((cache.config.backends.take count).map fun backend => (cache.job backend).filenames).foldl
        OrderedMap.union ∅ := by
    rw [ownersAfter, jobs, ← List.map_take, List.foldl_map, List.foldl_map]
  rw [configured_upTo, configured_upTo, hfold, hfold, hbackends]
  simp only [hjob]

-- Every path is mapped to the reference of a key whose copy goes there.
theorem mem_configured {cache : Cache} {entry : Text × Text}
    (h : entry ∈ cache.configured.entries) : ∃ backend ∈ cache.config.backends,
      ∃ key ∈ backend.keys,
        entry = ((cache.job backend).localPath key, backend.reference key) := by
  rw [configured_eq_ofList] at h
  rcases OrderedMap.mem_insertAll h with hnone | hmem
  · exact absurd hnone List.not_mem_nil
  · obtain ⟨⟨job, key⟩, hx, rfl⟩ := List.mem_map.mp hmem
    obtain ⟨hjob, hkey⟩ := Listed.mem_ofJobs.mp hx
    obtain ⟨backend, hbackend, rfl⟩ := List.mem_map.mp hjob
    exact ⟨backend, hbackend, key, hkey, rfl⟩

/-! ## 2. Where fetches stop -/

/-- A result at a position names the owners of the job there, if it is an outcome. -/
def NamesOwners (jobs : List Fetch.Job) (position : Nat) (result : Fetched) : Prop :=
  ∀ job outcome, jobs[position]? = some job → result = .ok outcome →
    outcome.filenames = job.filenames

section Stopping

variable {run : Run} {jobs : List Fetch.Job} {results : List Fetched} {workers : Nat}
  {schedule : Schedule}

-- Results that are gathered up to the first failure name the owners of the first jobs.
theorem filenames_gather (hfits : Fits jobs (NamesOwners jobs) results) (progress : Progress) :
    ∃ count ≤ jobs.length, (progress.gather results).filenames =
      ownersAfter progress.filenames (jobs.take count) := by
  induction results generalizing jobs progress with
  | nil => exact ⟨0, Nat.zero_le _, rfl⟩
  | cons result rest ih =>
    obtain ⟨job, others, rfl⟩ := List.exists_cons_of_length_eq_add_one hfits.length_eq.symm
    cases result with
    | error failure => exact ⟨0, Nat.zero_le _, rfl⟩
    | ok outcome =>
      have hrest : Fits others (NamesOwners others) rest :=
        ⟨Nat.succ.inj hfits.length_eq, fun position => hfits.ends (position + 1)⟩
      obtain ⟨count, hle, howners⟩ := ih hrest (progress.add outcome)
      have hfirst : outcome.filenames = job.filenames :=
        hfits.ends 0 (.ok outcome) rfl job outcome rfl rfl
      refine ⟨count + 1, Nat.succ_le_succ hle, ?_⟩
      rw [Progress.gather, howners, Progress.add, hfirst]
      rfl

-- However fetches end, the owners that are known are those of the first jobs: those in front of the
-- first failure, or none if a failure escapes.
theorem pullAll_stops (hnaming : Naming run)
    (horder : workers ≠ 1 → schedule.order.Perm (List.range jobs.length)) (world : World) :
    ∃ count ≤ jobs.length, ((pullAll run workers schedule jobs).run world).1.filenames =
      ownersAfter ∅ (jobs.take count) := by
  have hsteady : Steady run jobs (NamesOwners jobs) fun _ _ => True := by
    refine ⟨fun position job world hjob _ other outcome hother hrun => ?_,
      fun _ _ _ _ _ _ _ => trivial, fun _ _ _ _ => trivial⟩
    obtain rfl := Option.some.inj (hjob.symm.trans hother)
    exact hnaming job world outcome _ (Prod.ext hrun rfl)
  have hfits : Fits jobs (NamesOwners jobs) (jobs.map fun _ => .error .interrupted) := by
    refine ⟨List.length_map _, fun position result hresult job outcome _ hok => ?_⟩
    rw [List.getElem?_map, Option.map_eq_some_iff] at hresult
    obtain ⟨_, -, hfailed⟩ := hresult
    simp [hok] at hfailed
  unfold pullAll
  split
  · obtain ⟨found, hfound, hresult⟩ := pullInOrder_steady hsteady hfits fun _ _ => trivial
    rw [hresult]
    exact filenames_gather hfound .none
  · rename_i hmany
    obtain ⟨found, hfound, hresult⟩ := pullTogether_steady hsteady hfits
      (horder fun hone => hmany (.inl hone)) fun _ _ => trivial
    rw [hresult]
    rcases progress_cases schedule found with hgathered | ⟨failure, -, -, hescaped⟩
    · rw [hgathered]
      exact filenames_gather hfound .none
    · rw [hescaped]
      exact ⟨0, Nat.zero_le _, rfl⟩

end Stopping

/-! ## 3. What can be done with a cache -/

/-- The cache whose options say whether copies are overwritten, and else what they said. -/
def withOverwrite (cache : Cache) (value : Bool) : Cache :=
  let options := { cache.config.effectiveOptions with overwrite := value }
  { cache with config := { cache.config with options := some options } }

/-- What can be done with a cache. Of its options it can be changed whether copies are overwritten. -/
inductive Operation where
  | validate
  | checkCredentials (cloud : Cloud) (factory : Fetch.Factory)
  | pull (attempt : Attempt)
  | mapConfigured
  | load (now : DateTime)
  | buildIndex (attempt : Attempt) (now : DateTime)
  | setOverwrite (value : Bool)

namespace Operation

/-- The cache and the world after an operation, however it ends. -/
def run (cache : Cache) (world : World) : Operation → Cache × World
  | validate => (Cache.validate.runOn cache world).2
  | checkCredentials cloud factory => ((Cache.checkCredentials cloud factory).runOn cache world).2
  | pull attempt => (attempt.run cache world).2
  | mapConfigured => (Cache.mapConfigured.runOn cache world).2
  | load now => ((Step.ofAction (Cache.load now cache)).runOn cache world).2
  | buildIndex attempt now => ((Cache.buildIndex attempt.cloud attempt.factory attempt.cancelAt
      attempt.schedule now).runOn cache world).2
  | setOverwrite value => (cache.withOverwrite value, world)

def maps : Operation → Bool
  | pull _ | mapConfigured | buildIndex _ _ => true
  | _ => false

/-- If an operation fetches several backends at a time, each fetch ends once or is cancelled. -/
def Ordered (cache : Cache) : Operation → Prop
  | pull attempt | buildIndex attempt _ => cache.workers ≠ 1 →
      attempt.schedule.order.Perm (List.range cache.config.backends.length)
  | _ => True

end Operation

/-- How a step ends that fails with the error of a fault before it does anything. -/
def rejected {α : Type} (fault : Config.Fault) (cache : Cache) (world : World) :
    Except Failure α × Cache × World :=
  (.error (.error fault.toError), cache, world)

/-- The world in which the log says that a pull was passed over. -/
def warned (fault : Config.Fault) (world : World) : World :=
  world.record ⟨Log.warning, Log.registrySource,
    "Skipping pull, invalid configuration: " ++ fault.toError.describe⟩

section Operations

variable {α : Type} {fault : Config.Fault} {cache : Cache}

-- What comes after validating is not reached.
theorem validate_bind_of_fault (h : cache.config.validate = .error fault) (next : Unit → Step α)
    (world : World) : (validate >>= next).runOn cache world = rejected fault cache world := by
  simp only [validate, Step.runOn_bind, Step.runOn_get, Step.runOn_ofAction, Config.validated, h,
    Action.runIn_failWith]
  rfl

theorem validate_of_fault (h : cache.config.validate = .error fault) (world : World) :
    validate.runOn cache world = rejected fault cache world := by
  have hbind := validate_bind_of_fault h Pure.pure world
  rwa [bind_pure] at hbind

-- Validating sets the options of a valid configuration, or fails and changes nothing.
theorem validate_cases (cache : Cache) (world : World) :
    (cache.config.check = .ok () ∧ ∃ after, validate.runOn cache world =
        (.ok (), { cache with config := cache.config.withOptions }, after)) ∨
      cache.config.check ≠ .ok () ∧ ∃ failure after, validate.runOn cache world =
        (.error failure, cache, after) := by
  cases hcheck : cache.config.check with
  | ok _ =>
    obtain ⟨after, hvalidated, -⟩ := validated_run hcheck world
    refine .inl ⟨rfl, after, ?_⟩
    simp only [validate, Step.runOn_bind, Step.runOn_get, Step.runOn_ofAction, hvalidated,
      Step.runOn_modify]
  | error fault =>
    have hfault : cache.config.validate = .error fault := by rw [Config.validate, hcheck]
    exact .inr ⟨by simp, _, _, validate_of_fault hfault world⟩

-- A strict pull of an invalid configuration fails, any other one is passed over.
theorem Attempt.run_of_fault (h : cache.config.validate = .error fault) (attempt : Attempt)
    (world : World) : attempt.run cache world =
      if cache.strict then rejected fault cache world else (.ok [], cache, warned fault world) := by
  simp only [Attempt.run, pull, Step.runOn_bind, Step.runOn_get, h]
  split
  · rfl
  · rw [Step.runOn_bind, record_run]
    rfl

-- A pull of an invalid configuration changes nothing.
theorem Attempt.run_of_invalid (h : cache.config.check ≠ .ok ()) (attempt : Attempt)
    (world : World) : (attempt.run cache world).2.1 = cache := by
  cases hcheck : cache.config.check with
  | ok _ => exact absurd hcheck h
  | error fault =>
    rw [attempt.run_of_fault (by rw [Config.validate, hcheck])]
    split <;> rfl

-- A pull of a valid configuration maps its first backends.
theorem Attempt.run_of_valid (hvalid : cache.config.check = .ok ()) (attempt : Attempt)
    (world : World) : ∃ filenames, (attempt.run cache world).2.1 =
        { cache with config := cache.config.withOptions, filenames := filenames } ∧
      ((Operation.pull attempt).Ordered cache → ∃ count ≤ cache.config.backends.length,
        filenames = (cache.upTo count).configured) := by
  obtain ⟨filenames, hcache⟩ := attempt.run_cache hvalid world
  refine ⟨filenames, hcache, fun hordered => ?_⟩
  have hjobs : cache.jobs.length = cache.config.backends.length := List.length_map _
  have horder : cache.workers ≠ 1 →
      attempt.schedule.order.Perm (List.range cache.jobs.length) := by
    rw [hjobs]
    exact hordered
  obtain ⟨count, hle, hstops⟩ := pullAll_stops
    (fetching_naming attempt.cloud attempt.factory attempt.cancelAt) horder (announced cache world)
  rw [hjobs] at hle
  have hfilenames := congrArg Cache.filenames hcache
  rw [Attempt.run, pull_eq_pullValid hvalid, pullValid_run _ _ hvalid] at hfilenames
  rcases hall : (pullAll (fetching attempt.cloud attempt.factory attempt.cancelAt) cache.workers
    attempt.schedule cache.jobs).run (announced cache world) with ⟨progress, pulled⟩
  rw [hall] at hfilenames hstops
  simp only [filenames_concluded] at hfilenames
  exact ⟨count, hle, by rw [← hfilenames, hstops, configured_upTo]⟩

-- Building an index leaves the cache that its pull leaves.
theorem buildIndex_cache (attempt : Attempt) (now : DateTime) (cache : Cache) (world : World) :
    ((Operation.buildIndex attempt now).run cache world).1 = (attempt.run cache world).2.1 := by
  rw [Operation.run, buildIndex, Step.runOn_bind, Attempt.run]
  rcases (Cache.pull attempt.cloud attempt.factory attempt.cancelAt attempt.schedule).runOn cache
    world with ⟨failure | outcomes, after, pulled⟩ <;> rfl

/-- **An operation leaves the owners of paths and the substitutions, or it maps the first backends of
a valid configuration.** -/
theorem Operation.run_cases (operation : Operation) (cache : Cache) (world : World) :
    (∃ options : Option FetchOptions, (options.getD .standard).substitutions =
          cache.config.effectiveOptions.substitutions ∧
        (operation.run cache world).1 = { cache with config.options := options }) ∨
      operation.maps = true ∧ cache.config.check = .ok () ∧ ∃ filenames,
        (operation.run cache world).1 =
          { cache with config := cache.config.withOptions, filenames := filenames } ∧
        (operation.Ordered cache → ∃ count ≤ cache.config.backends.length,
          filenames = (cache.upTo count).configured) := by
  cases operation with
  | validate =>
    left
    rcases validate_cases cache world with ⟨-, after, hrun⟩ | ⟨-, failure, after, hrun⟩
    · exact ⟨some cache.config.effectiveOptions, rfl, by rw [run, hrun]; rfl⟩
    · exact ⟨cache.config.options, rfl, by rw [run, hrun]⟩
  | checkCredentials cloud factory =>
    left
    rw [run, Cache.checkCredentials, Step.runOn_bind]
    rcases validate_cases cache world with ⟨-, after, hrun⟩ | ⟨-, failure, after, hrun⟩
    · exact ⟨some cache.config.effectiveOptions, rfl, by rw [hrun]; rfl⟩
    · exact ⟨cache.config.options, rfl, by rw [hrun]⟩
  | pull attempt =>
    by_cases hvalid : cache.config.check = .ok ()
    · exact .inr ⟨rfl, hvalid, attempt.run_of_valid hvalid world⟩
    · exact .inl ⟨cache.config.options, rfl, attempt.run_of_invalid hvalid world⟩
  | mapConfigured =>
    by_cases hvalid : cache.config.check = .ok ()
    · obtain ⟨after, -, hrun⟩ := mapConfigured_run hvalid world
      refine .inr ⟨rfl, hvalid, cache.configured, by rw [run, hrun], fun _ => ?_⟩
      exact ⟨cache.config.backends.length, le_rfl, by rw [upTo_length]⟩
    · refine .inl ⟨cache.config.options, rfl, ?_⟩
      rcases validate_cases cache world with ⟨hcheck, -⟩ | ⟨-, failure, after, hrun⟩
      · exact absurd hcheck hvalid
      · rw [run, Cache.mapConfigured, Step.runOn_bind, hrun]
  | load now => exact .inl ⟨cache.config.options, rfl, rfl⟩
  | buildIndex attempt now =>
    rw [buildIndex_cache]
    by_cases hvalid : cache.config.check = .ok ()
    · exact .inr ⟨rfl, hvalid, attempt.run_of_valid hvalid world⟩
    · exact .inl ⟨cache.config.options, rfl, attempt.run_of_invalid hvalid world⟩
  | setOverwrite value =>
    exact .inl ⟨some { cache.config.effectiveOptions with overwrite := value }, rfl, rfl⟩

end Operations

/-! ## 4. Caches that are used -/

/-- The caches that operations lead to, each of them run in whatever world there is by then. -/
inductive Reachable (start : Cache) : Cache → Prop where
  | start : Reachable start start
  | step {cache : Cache} (operation : Operation) (world : World) (hreachable : Reachable start cache)
      (hordered : operation.Ordered cache) : Reachable start (operation.run cache world).1

/-- A cache has the configuration of another one up to whether options are set and copies are
overwritten, and the owners that it knows are those of the first backends. -/
structure MapsFirst (start cache : Cache) : Prop where
  destination_eq : cache.config.destination = start.config.destination
  backends_eq : cache.config.backends = start.config.backends
  substitutions_eq : cache.config.effectiveOptions.substitutions =
    start.config.effectiveOptions.substitutions
  filenames_eq : ∃ count ≤ start.config.backends.length,
    cache.filenames = (start.upTo count).configured

-- Every operation keeps it.
theorem MapsFirst.run {start cache : Cache} (h : MapsFirst start cache) (operation : Operation)
    (world : World) (hordered : operation.Ordered cache) :
    MapsFirst start (operation.run cache world).1 := by
  rcases operation.run_cases cache world with
    ⟨options, hsubstitutions, hrun⟩ | ⟨-, -, filenames, hrun, hfirst⟩
  · rw [hrun]
    exact ⟨h.destination_eq, h.backends_eq, hsubstitutions.trans h.substitutions_eq, h.filenames_eq⟩
  · rw [hrun]
    obtain ⟨count, hle, hfilenames⟩ := hfirst hordered
    refine ⟨h.destination_eq, h.backends_eq, h.substitutions_eq, count, h.backends_eq ▸ hle, ?_⟩
    rw [← configured_upTo_congr h.destination_eq h.backends_eq h.substitutions_eq]
    exact hfilenames

theorem Reachable.mapsFirst {start cache : Cache} (h : Reachable start cache)
    (hnew : start.filenames = ∅) : MapsFirst start cache := by
  induction h with
  | start => exact ⟨rfl, rfl, rfl, 0, Nat.zero_le _, hnew⟩
  | step operation world _ hordered ih => exact ih.run operation world hordered

/-- **In whatever way a new cache is used, the owners of paths that it knows are those that its first
backends map**, entry for entry, and each is the reference of a key as it is configured. No operation
but pulling, building an index and mapping the configuration changes them, and none if the
configuration is invalid. -/
theorem reachable_filenames {config : Config} {strict : Bool} {workers : Int} {cache : Cache}
    (h : Reachable (.make config strict workers) cache) :
    (∃ count ≤ config.backends.length,
        cache.filenames = ((Cache.make config strict workers).upTo count).configured ∧
        ∀ entry ∈ cache.filenames.entries, ∃ backend ∈ config.backends.take count,
          ∃ key ∈ backend.keys, entry.2 = backend.reference key) ∧
      ∀ (operation : Operation) (world : World),
        (operation.run cache world).1.filenames ≠ cache.filenames →
          operation.maps = true ∧ cache.config.check = .ok () := by
  refine ⟨?_, fun operation world hchanged => ?_⟩
  · obtain ⟨count, hle, hfilenames⟩ := (h.mapsFirst rfl).filenames_eq
    refine ⟨count, hle, hfilenames, fun entry hentry => ?_⟩
    rw [hfilenames] at hentry
    obtain ⟨backend, hbackend, key, hkey, rfl⟩ := mem_configured hentry
    exact ⟨backend, hbackend, key, hkey, rfl⟩
  · rcases operation.run_cases cache world with ⟨options, -, hrun⟩ | ⟨hmaps, hvalid, -⟩
    · exact absurd (by rw [hrun]) hchanged
    · exact ⟨hmaps, hvalid⟩

/-- A cloud in which every object spells its key and the bucket `c` has none. -/
def lackingCloud : Cloud :=
  { spellingCloud with
    transfer := fun bucket key =>
      if bucket = "c" then ⟨[], some (.refused "404" "HeadObject" "Not Found"), false, 0⟩
      else spellingCloud.transfer bucket key }

/-- Three backends, the second of which fails. -/
def lackingConfig : Config :=
  ⟨"d", none, [⟨"b", ["a"], [], [], [], []⟩, ⟨"c", ["x"], [], [], [], []⟩,
    ⟨"b", ["e"], [], [], [], []⟩]⟩

/-- A pull at the same time in which the second fetch ends first and the third is cancelled. -/
def lackingAttempt : Attempt :=
  ⟨lackingCloud, .standard, none, ⟨[1, 0, 2], [2]⟩⟩

/-- After the configuration was mapped and a pull failed at the second of three backends, the map is
that of the first one, and mapping the configuration changes it. -/
theorem reachable_after_failed_pull :
    let start := Cache.make lackingConfig true 2
    let mapped := (Operation.mapConfigured.run start sampleWorld).1
    let anew := ((Operation.setOverwrite true).run mapped sampleWorld).1
    let cache := ((Operation.pull lackingAttempt).run anew sampleWorld).1
    Reachable start cache ∧ mapped.filenames.size = 3 ∧
      cache.filenames.entries = ([("d/b/a", "arn:aws:s3:::b/a")] : List (Text × Text)) ∧
      (∃ count ≤ 3, cache.filenames = (start.upTo count).configured) ∧
      (Operation.mapConfigured.run cache sampleWorld).1.filenames ≠ cache.filenames ∧
      cache.config.check = .ok () := by
  intro start mapped anew cache
  have hreachable : Reachable start cache :=
    .step (.pull lackingAttempt) sampleWorld (.step (.setOverwrite true) sampleWorld
      (.step .mapConfigured sampleWorld .start trivial) trivial) fun _ => by decide
  have hchanged : (Operation.mapConfigured.run cache sampleWorld).1.filenames ≠
      cache.filenames := by decide +kernel
  obtain ⟨⟨count, hle, hfilenames, -⟩, hchanges⟩ := reachable_filenames hreachable
  exact ⟨hreachable, by decide +kernel, by decide +kernel, ⟨count, hle, hfilenames⟩, hchanged,
    (hchanges .mapConfigured sampleWorld hchanged).2⟩

end StateOwnership.Cache
