import StateOwnership.Proofs.Cache.Recovery
import StateOwnership.Proofs.Fetch.Repetition

/-!
# Pulling again

Once a pull has succeeded the path of every copy leads to it, through whatever directories, shared
with whatever other copies, and whether the copy was downloaded or found there. **A pull of the same
configuration that does not overwrite then passes over every key**: it succeeds without a client and
without a call, whatever the services would answer, and names the same owners.
-/

namespace StateOwnership.Cache

/-- A cache of the same backends at the same place, under the same options but that copies are not
overwritten. -/
structure Repeats (again cache : Cache) : Prop where
  destination_eq : again.config.destination = cache.config.destination
  backends_eq : again.config.backends = cache.config.backends
  options_eq : again.config.effectiveOptions =
    { cache.config.effectiveOptions with overwrite := false }

namespace Repeats

variable {again cache : Cache}

-- Copies that are overwritten go where those go that are not.
theorem localCopy_eq (h : Repeats again cache) (backend : Backend) (key : Text) :
    (again.job backend).localCopy key = (cache.job backend).localCopy key := by
  simp only [Fetch.Job.localCopy, job, FetchOptions.substitute, h.destination_eq, h.options_eq]

theorem filenames_eq (h : Repeats again cache) (backend : Backend) :
    (again.job backend).filenames = (cache.job backend).filenames := by
  simp only [Fetch.Job.filenames, Fetch.Job.localPath, h.localCopy_eq]
  rfl

theorem configured_eq (h : Repeats again cache) : again.configured = cache.configured := by
  rw [Cache.configured_eq, Cache.configured_eq, ownersAfter, ownersAfter, jobs, jobs,
    List.foldl_map, List.foldl_map, h.backends_eq]
  simp only [h.filenames_eq]

theorem check_eq (h : Repeats again cache) : again.config.check = cache.config.check := by
  rw [Config.check, Config.check, h.destination_eq, h.backends_eq]

theorem overwrite_eq (h : Repeats again cache) {job : Fetch.Job} (hjob : job ∈ again.jobs) :
    job.options.overwrite = false := by
  rw [options_of_mem_jobs hjob, h.options_eq]

theorem reached (h : Repeats again cache) {files : FileTree}
    (hreached : ∀ job ∈ cache.jobs, job.Reached files) : ∀ job ∈ again.jobs, job.Reached files := by
  intro job hjob
  obtain ⟨backend, hbackend, rfl⟩ := List.mem_map.mp hjob
  have hmem : cache.job backend ∈ cache.jobs := List.mem_map_of_mem (h.backends_eq ▸ hbackend)
  exact (hreached _ hmem).congr rfl (h.localCopy_eq backend)

end Repeats

section Repetition

variable {cloud : Cloud} {factory : Fetch.Factory} {cancelAt : Option Nat} {attempt : Attempt}
  {cache after again : Cache} {world final : World} {outcomes : List Fetch.Outcome}
  {jobs : List Fetch.Job} {progress last : Progress}

-- Fetches in order pass over everything if all their copies are reached.
theorem pullInOrder_of_reached (hreached : ∀ job ∈ jobs, job.Reached world.files)
    (hroot : world.files.Rooted) (hkeep : ∀ job ∈ jobs, job.options.overwrite = false)
    (progress : Progress) :
    (pullInOrder (fetching cloud factory cancelAt) progress jobs).run world =
      (⟨progress.outcomes ++ jobs.map (·.passedOver), ownersAfter progress.filenames jobs,
        progress.failure⟩, world.recordAll (jobs.flatMap (·.passing))) := by
  induction jobs generalizing progress world with
  | nil =>
    rw [List.map_nil, List.append_nil]
    rfl
  | cons job rest ih =>
    have hfirst : (fetching cloud factory cancelAt job).run world =
        (.ok job.passedOver, world.recordAll job.passing) :=
      Fetch.fetch_of_reached (hreached job List.mem_cons_self) hroot (hkeep job List.mem_cons_self)
    have halike := World.Alike.recordAll world job.passing
    have hrest := ih
      (fun other hother => (hreached other (List.mem_cons_of_mem _ hother)).alike halike)
      (halike.kept.rooted hroot) (fun other hother => hkeep other (List.mem_cons_of_mem _ hother))
      (progress.add job.passedOver)
    rw [pullInOrder_cons, hfirst]
    simp only [hrest]
    simp only [Progress.add, List.map_cons, List.append_assoc, List.singleton_append,
      List.flatMap_cons, World.recordAll_append]
    rfl

-- Fetches in order that do not fail tell the bucket and the owners of every backend.
theorem pullInOrder_outcomes
    (h : (pullInOrder (fetching cloud factory cancelAt) progress jobs).run world = (last, final))
    (hok : last.failure = none) :
    last.outcomes.map (fun outcome => (outcome.bucket, outcome.filenames)) =
      progress.outcomes.map (fun outcome => (outcome.bucket, outcome.filenames)) ++
        jobs.map fun job => (job.backend.bucket, job.filenames) := by
  induction jobs generalizing progress world with
  | nil =>
    have hnil : (progress, world) = (last, final) := h
    rw [Prod.mk.injEq] at hnil
    simp [hnil.1]
  | cons job rest ih =>
    rw [pullInOrder_cons] at h
    rcases hrun : (fetching cloud factory cancelAt job).run world with ⟨failure | outcome, between⟩
    · rw [hrun, Prod.mk.injEq] at h
      rw [← h.1] at hok
      simp at hok
    · rw [hrun] at h
      have hnames := fetching_naming cloud factory cancelAt job world outcome between hrun
      have hbucket := Fetch.fetch_bucket hrun
      simp [ih h, Progress.add, hnames, hbucket]

/-- What a pull says that passes over everything. -/
def passing (cache : Cache) : List Log.Record :=
  (if cache.config.options = none then
      [⟨Log.debug, Log.configSource, "No fetch options configured, using defaults"⟩] else []) ++
    [⟨Log.info, Log.registrySource,
      "Pulling state from " ++ Text.ofNat cache.config.backends.length ++ " backend(s)"⟩] ++
    cache.jobs.flatMap (·.passing) ++
    [⟨Log.info, Log.registrySource,
      "Pulled " ++ Text.ofNat cache.configured.size ++ " state file(s)"⟩]

-- No client has a part in what is said.
theorem source_ne_of_mem_passing {r : Log.Record} (h : r ∈ cache.passing) :
    r.source ≠ Log.clientSource := by
  have hsources : Log.configSource ≠ Log.clientSource ∧ Log.registrySource ≠ Log.clientSource ∧
      Log.fetchSource ≠ Log.clientSource := by decide +kernel
  simp only [passing, List.mem_append, List.mem_flatMap, Fetch.Job.passing, List.mem_map,
    List.mem_singleton] at h
  rcases h with ((hdefaults | rfl) | ⟨job, -, ⟨key, -, rfl⟩ | rfl⟩) | rfl
  · split at hdefaults
    · rw [List.mem_singleton.mp hdefaults]
      exact hsources.1
    · simp at hdefaults
  · exact hsources.2.1
  · exact hsources.2.2
  · exact hsources.2.2
  · exact hsources.2.1

-- A pull with one worker that succeeds tells the bucket and the owners of every backend.
theorem run_outcomes (hvalid : cache.config.check = .ok ()) (hone : cache.workers = 1)
    (h : attempt.run cache world = (.ok outcomes, after, final)) :
    outcomes.map (fun outcome => (outcome.bucket, outcome.filenames)) =
      cache.jobs.map fun job => (job.backend.bucket, job.filenames) := by
  rw [Attempt.run, pull_eq_pullValid hvalid, pullValid_run _ _ hvalid, pullAll,
    if_pos (.inl hone)] at h
  rcases hfetches : (pullInOrder (fetching attempt.cloud attempt.factory attempt.cancelAt) .none
    cache.jobs).run (announced cache world) with ⟨last, pulled⟩
  rw [hfetches] at h
  cases hfailure : last.failure with
  | some failure => simp [concluded, hfailure] at h
  | none =>
    simp only [concluded, hfailure, Prod.mk.injEq, Except.ok.injEq] at h
    rw [← h.1]
    exact pullInOrder_outcomes hfetches hfailure

-- A pull all of whose copies are reached passes over them.
theorem run_of_reached (hvalid : cache.config.check = .ok ()) (hone : cache.workers = 1)
    (hkeep : ∀ job ∈ cache.jobs, job.options.overwrite = false) (hroot : world.files.Rooted)
    (hreached : ∀ job ∈ cache.jobs, job.Reached world.files) :
    attempt.run cache world =
      (.ok (cache.jobs.map (·.passedOver)),
        { cache with config := cache.config.withOptions, filenames := cache.configured },
        world.recordAll cache.passing) := by
  have halike := announced_alike hvalid world
  have hfetches : (pullInOrder (fetching attempt.cloud attempt.factory attempt.cancelAt) .none
      cache.jobs).run (announced cache world) = _ :=
    pullInOrder_of_reached (fun job hjob => (hreached job hjob).alike halike)
      (halike.kept.rooted hroot) hkeep .none
  have hannounced : announced cache world = (world.recordAll
      (if cache.config.options = none then
        [⟨Log.debug, Log.configSource, "No fetch options configured, using defaults"⟩]
      else [])).record ⟨Log.info, Log.registrySource,
        "Pulling state from " ++ Text.ofNat cache.config.backends.length ++ " backend(s)"⟩ := by
    rw [announced, Config.validated, Config.validate, hvalid]
    by_cases hoptions : cache.config.options = none
    · simp only [if_pos hoptions]
      rfl
    · simp only [if_neg hoptions]
      rfl
  rw [Attempt.run, pull_eq_pullValid hvalid, pullValid_run _ _ hvalid, pullAll, if_pos (.inl hone),
    hfetches, passing, World.recordAll_append, World.recordAll_append, World.recordAll_append,
    configured_eq, hannounced]
  rfl

/-- **A pull after one that succeeded passes over everything** if it does not overwrite. Before it is
known what the services would answer and how clients would be made, it is known what comes of it: the
outcome of every backend names the owners that it named before, nothing was downloaded and every key
was passed over, no client speaks in the log, nothing was asked of the services, and the file tree is
as it was but for the lines of the log. -/
theorem run_again (hvalid : cache.config.check = .ok ()) (hroot : world.files.Rooted)
    (hone : cache.workers = 1) (hrepeats : Repeats again cache) (hone' : again.workers = 1)
    (h : attempt.run cache world = (.ok outcomes, after, final)) :
    ∃ repeated records,
      (∀ other : Attempt, other.run again final = (.ok repeated,
        { again with config := again.config.withOptions, filenames := after.filenames },
        final.recordAll records)) ∧
      repeated.map (fun outcome => (outcome.bucket, outcome.filenames)) =
        outcomes.map (fun outcome => (outcome.bucket, outcome.filenames)) ∧
      repeated.map (·.downloaded) = cache.config.backends.map (fun _ => []) ∧
      repeated.map (·.skipped) = cache.config.backends.map (·.keys) ∧
      (∀ r ∈ records, r.source ≠ Log.clientSource) ∧
      (final.recordAll records).calls = final.calls ∧
      Log.Rewritten final.log.places final.files (final.recordAll records).files ∧
      (final.log.places = [] → final.recordAll records = final) := by
  obtain ⟨rfl, hreached⟩ := run_ok hvalid hroot (fun hmany => absurd hone hmany) h
  -- The first pull leaves a tree that keeps what was there, so its root is a directory still.
  obtain ⟨begun, pulled, hbegun, hsettles, hpulled⟩ := pull_ok hvalid hroot h
  have hfinal : final.files.Rooted :=
    ((hbegun.kept.trans hsettles.kept).trans hpulled.kept).rooted hroot
  have hrun (other : Attempt) : other.run again final = _ :=
    run_of_reached (hrepeats.check_eq.trans hvalid) hone'
      (fun job hjob => hrepeats.overwrite_eq hjob) hfinal (hrepeats.reached hreached)
  refine ⟨again.jobs.map (·.passedOver), again.passing, fun other => ?_, ?_, ?_, ?_,
    fun r hr => source_ne_of_mem_passing hr, World.calls_recordAll _ _,
    (World.Alike.recordAll _ _).files, fun hlog => World.recordAll_of_no_places hlog _⟩
  · rw [hrun other, hrepeats.configured_eq]
  · rw [run_outcomes hvalid hone h, jobs, jobs, List.map_map, List.map_map, List.map_map,
      hrepeats.backends_eq]
    exact List.map_congr_left fun backend _ => congrArg _ (hrepeats.filenames_eq backend)
  · rw [jobs, List.map_map, List.map_map, hrepeats.backends_eq]
    rfl
  · rw [jobs, List.map_map, List.map_map, hrepeats.backends_eq]
    rfl

end Repetition

/-- A cache of two backends whose keys share copies: two spellings of one key, a key that leads through
a directory and out of it again, and a key that leads into the other bucket's directory. -/
def overlappingCache (overwrite : Bool) : Cache :=
  .make ⟨"d", some ⟨[], overwrite, []⟩,
    [⟨"b", ["x/a", "/x/a", "x/../y/c"], [], [], [], []⟩, ⟨"c", ["../b/x/a"], [], [], [], []⟩]⟩ true 1

/-- After a pull that overwrote every copy, one that does not overwrites none and asks for none. -/
theorem passed_over_after_overwriting :
    let first : Attempt := ⟨spellingCloud, .standard, none, .inOrder 2⟩
    let pulled := first.run (overlappingCache true) sampleWorld
    pulled.1.toBool = true ∧ pulled.2.2.calls.length = 8 ∧
      ∀ other : Attempt, (other.run (overlappingCache false) pulled.2.2).1.toBool = true ∧
        (other.run (overlappingCache false) pulled.2.2).2.1.filenames = pulled.2.1.filenames ∧
        (other.run (overlappingCache false) pulled.2.2).2.2 = pulled.2.2 := by
  intro first pulled
  have hpulled : pulled.1.toBool = true := by decide +kernel
  have hlog : pulled.2.2.log.places = [] := by decide +kernel
  refine ⟨hpulled, by decide +kernel, fun other => ?_⟩
  rcases hrun : pulled with ⟨failure | outcomes, after, final⟩
  · rw [hrun] at hpulled
    simp [Except.toBool] at hpulled
  have hvalid : (overlappingCache true).config.check = .ok () := rfl
  have hrepeats : Repeats (overlappingCache false) (overlappingCache true) := ⟨rfl, rfl, rfl⟩
  obtain ⟨repeated, records, hagain, -, -, -, -, -, -, hquiet⟩ :=
    run_again hvalid rooted_sampleWorld rfl hrepeats rfl hrun
  rw [hrun] at hlog
  rw [hagain other, hquiet hlog]
  exact ⟨rfl, rfl, rfl⟩

end StateOwnership.Cache
