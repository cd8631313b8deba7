import StateOwnership.Cache.Pull
import StateOwnership.Proofs.Fetch.Settling
import StateOwnership.Proofs.OrderedMap

/-!
# Successful pulls

A pull that succeeds has fetched the backends one after the other in some order, each of them
successfully. **The order decides what shared files hold; the owners of paths follow from the
configuration alone.**
-/

namespace StateOwnership.Cache

/-! ## 1. Steps -/

namespace Step

variable {α β : Type} {cache after : Cache} {world final : World} {failure : Failure}

@[simp] theorem runOn_pure (a : α) (cache : Cache) (world : World) :
    (pure a : Step α).runOn cache world = (.ok a, cache, world) := rfl

@[simp] theorem runOn_throw (failure : Failure) (cache : Cache) (world : World) :
    (throw failure : Step α).runOn cache world = (.error failure, cache, world) := rfl

@[simp] theorem runOn_get (cache : Cache) (world : World) :
    (get : Step Cache).runOn cache world = (.ok cache, cache, world) := rfl

@[simp] theorem runOn_modify (change : Cache → Cache) (cache : Cache) (world : World) :
    (modify change : Step Unit).runOn cache world = (.ok (), change cache, world) := rfl

@[simp] theorem runOn_ofAction (action : Action α) (cache : Cache) (world : World) :
    (ofAction action).runOn cache world =
      ((action.runIn world).1, cache, (action.runIn world).2) := rfl

theorem runOn_bind (step : Step α) (next : α → Step β) (cache : Cache) (world : World) :
    (step >>= next).runOn cache world =
      match step.runOn cache world with
      | (.ok a, after, final) => (next a).runOn after final
      | (.error failure, after, final) => (.error failure, after, final) := by
  unfold runOn ExceptT.run StateT.run
  simp only [bind, ExceptT.bind, ExceptT.mk, StateT.bind]
  rcases step cache world with ⟨⟨result, after⟩, final⟩
  cases result <;> rfl

end Step

/-! ## 2. Fetches in a row -/

inductive SettlesAll (cloud : Cloud) : List Fetch.Job → World → World → Prop where
  | nil {world : World} : SettlesAll cloud [] world world
  | cons {job : Fetch.Job} {rest : List Fetch.Job} {world between after : World}
      (hfirst : Fetch.Settles cloud job world between)
      (hrest : SettlesAll cloud rest between after) : SettlesAll cloud (job :: rest) world after

namespace SettlesAll

variable {cloud : Cloud} {jobs others : List Fetch.Job} {world between after : World}
  {loc : Location}

theorem kept (h : SettlesAll cloud jobs world after) :
    FileTree.Kept world.files after.files := by
  induction h with
  | nil => exact .refl _
  | cons hfirst hrest ih => exact hfirst.kept.trans ih

theorem log_eq (h : SettlesAll cloud jobs world after) : after.log = world.log := by
  induction h with
  | nil => rfl
  | cons hfirst hrest ih => exact ih.trans hfirst.log_eq

-- The paths of all copies lead to their places.
theorem reached (h : SettlesAll cloud jobs world after) :
    ∀ job ∈ jobs, ∀ key ∈ job.backend.keys, Path.check (job.localPath key) = .ok () ∧
      after.files.locate (job.localPath key) = .ok (job.place world.files.start key) := by
  induction h with
  | nil => simp
  | cons hfirst hrest ih =>
    intro job hjob key hkey
    rcases List.mem_cons.mp hjob with rfl | hjob
    · obtain ⟨hcheck, hlocate⟩ := hfirst.reached key hkey
      exact ⟨hcheck, hrest.kept.locate hlocate⟩
    · rw [← hfirst.kept.start_eq]
      exact ih job hjob key hkey

-- What is on the way of a copy is a directory.
theorem leadsThrough (h : SettlesAll cloud jobs world after) {job : Fetch.Job} (hjob : job ∈ jobs)
    (hthrough : job.LeadsThrough world.files.start loc) :
    after.files.get? loc = some .directory := by
  obtain ⟨key, hkey, htrail⟩ := hthrough
  rw [← h.kept.start_eq] at htrail
  exact FileTree.kind?_eq_directory.mp (FileTree.directories_of_locate (h.reached job hjob key hkey).2
    (Path.fileName_no_slash _) loc htrail)

-- Without overwriting, what was there stays.
theorem get?_of_some (h : SettlesAll cloud jobs world after)
    (hkeep : ∀ job ∈ jobs, job.options.overwrite = false) (hloc : loc ∉ world.log.places)
    {entry : FileTree.Entry} (hsome : world.files.get? loc = some entry) :
    after.files.get? loc = some entry := by
  induction h with
  | nil => exact hsome
  | cons hfirst hrest ih =>
    apply ih (fun job hjob => hkeep job (List.mem_cons_of_mem _ hjob)) (hfirst.log_eq ▸ hloc)
    rw [hfirst.get?_eq loc hloc, Fetch.settled_of_keep (hkeep _ List.mem_cons_self), hsome,
      Option.some_or]

-- Without overwriting, a location where nothing was and that is on no way holds the first body that
-- belongs there.
theorem get?_of_none (h : SettlesAll cloud jobs world after)
    (hkeep : ∀ job ∈ jobs, job.options.overwrite = false) (hloc : loc ∉ world.log.places)
    (hnone : world.files.get? loc = none)
    (haway : ∀ job ∈ jobs, ¬ job.LeadsThrough world.files.start loc) :
    after.files.get? loc =
      (jobs.flatMap (·.bodiesAt cloud world.files.start loc)).head?.map .file := by
  induction h with
  | nil => exact hnone
  | @cons job rest world between after hfirst hrest ih =>
    have hstart := hfirst.kept.start_eq
    have hkeep' : ∀ job ∈ rest, job.options.overwrite = false :=
      fun job hjob => hkeep job (List.mem_cons_of_mem _ hjob)
    have hfirstGet := hfirst.get?_eq loc hloc
    rw [Fetch.settled_of_keep (hkeep _ List.mem_cons_self), hnone, Option.none_or,
      if_neg (haway _ List.mem_cons_self)] at hfirstGet
    rw [List.flatMap_cons]
    cases hbodies : job.bodiesAt cloud world.files.start loc with
    | nil =>
      rw [hbodies] at hfirstGet
      rw [← hstart] at haway ⊢
      exact ih hkeep' (hfirst.log_eq ▸ hloc) hfirstGet
        fun job hjob => haway job (List.mem_cons_of_mem _ hjob)
    | cons body bodies =>
      rw [hbodies] at hfirstGet
      exact hrest.get?_of_some hkeep' (hfirst.log_eq ▸ hloc) hfirstGet

-- Where no copy stands, what was there stays.
theorem get?_of_no_key (h : SettlesAll cloud jobs world after) (hloc : loc ∉ world.log.places)
    (hkeys : ∀ job ∈ jobs, job.keysAt world.files.start loc = []) {entry : FileTree.Entry}
    (hsome : world.files.get? loc = some entry) : after.files.get? loc = some entry := by
  induction h with
  | nil => exact hsome
  | cons hfirst hrest ih =>
    have hstart := hfirst.kept.start_eq
    refine ih (hfirst.log_eq ▸ hloc) (fun job hjob => ?_) ?_
    · rw [hstart]
      exact hkeys job (List.mem_cons_of_mem _ hjob)
    · rw [hfirst.get?_eq loc hloc, Fetch.settled_of_no_key (hkeys _ List.mem_cons_self), hsome,
        Option.some_or]

-- With overwriting, a location holds the bodies of the last fetch that has any there.
theorem get?_of_overwrite (h : SettlesAll cloud jobs world after)
    (hanew : ∀ job ∈ jobs, job.options.overwrite = true) (hloc : loc ∉ world.log.places)
    (hkeys : ∃ job ∈ jobs, job.keysAt world.files.start loc ≠ []) :
    after.files.get? loc =
      ((jobs.map (·.bodiesAt cloud world.files.start loc)).filter (· ≠ [])).getLast?.map
        (fun bodies => .file (Fetch.layered bodies)) := by
  induction h with
  | nil => simp at hkeys
  | @cons job rest world between after hfirst hrest ih =>
    have hstart := hfirst.kept.start_eq
    have hloc' : loc ∉ between.log.places := hfirst.log_eq ▸ hloc
    rw [List.map_cons]
    by_cases hlater : ∃ job ∈ rest, job.keysAt world.files.start loc ≠ []
    -- A later fetch has keys there: whatever the first one left is written anew.
    · have hrestGet := ih (fun job hjob => hanew job (List.mem_cons_of_mem _ hjob)) hloc'
        (by rwa [hstart])
      rw [hrestGet, hstart]
      have hsome : (rest.map (·.bodiesAt cloud world.files.start loc)).filter (· ≠ []) ≠ [] := by
        obtain ⟨other, hother, hothers⟩ := hlater
        rw [Ne, List.filter_eq_nil_iff]
        intro hnone
        have hempty := hnone _ (List.mem_map_of_mem (f := fun job : Fetch.Job =>
          job.bodiesAt cloud world.files.start loc) hother)
        simp [Fetch.Job.bodiesAt] at hempty
        exact hothers hempty
      rw [List.filter_cons]
      split
      · rw [List.getLast?_cons_of_ne_nil hsome]
      · rfl
    -- None has: the file of the first fetch stays.
    · have hnone : ∀ job ∈ rest, job.keysAt world.files.start loc = [] := by
        intro job hjob
        by_contra hjobKeys
        exact hlater ⟨job, hjob, hjobKeys⟩
      have hhere : job.keysAt world.files.start loc ≠ [] := by
        obtain ⟨other, hother, hothers⟩ := hkeys
        rcases List.mem_cons.mp hother with rfl | hother
        · exact hothers
        · exact absurd (hnone other hother) hothers
      have hfirstGet := hfirst.get?_eq loc hloc
      rw [Fetch.settled_of_overwrite (hanew _ List.mem_cons_self) hhere] at hfirstGet
      rw [hrest.get?_of_no_key hloc' (by rwa [hstart]) hfirstGet]
      have hrestNil : (rest.map (·.bodiesAt cloud world.files.start loc)).filter (· ≠ []) = [] := by
        rw [List.filter_eq_nil_iff]
        intro bodies hbodies
        obtain ⟨other, hother, rfl⟩ := List.mem_map.mp hbodies
        simp [Fetch.Job.bodiesAt, hnone other hother]
      rw [List.filter_cons_of_pos (by simpa [Fetch.Job.bodiesAt] using hhere), hrestNil]
      rfl

end SettlesAll

/-- The owners of paths after those of the given fetches were added. -/
def ownersAfter (filenames : OrderedMap Text Text) (jobs : List Fetch.Job) :
    OrderedMap Text Text :=
  jobs.foldl (fun filenames job => filenames.union job.filenames) filenames

-- The owners that are noted key by key are those of one map a fetch.
theorem configured_eq (cache : Cache) : cache.configured = ownersAfter ∅ cache.jobs := by
  have hjob : noteOwners = fun filenames job => filenames.union job.filenames := by
    funext filenames job
    rw [Fetch.Job.filenames, OrderedMap.union_ofList, OrderedMap.insertAll, List.foldl_map]
    rfl
  rw [configured, ownersAfter, hjob]

section Fetching

variable {cloud : Cloud} {factory : Fetch.Factory} {cancelAt : Option Nat}
  {world after : World} {jobs : List Fetch.Job}

def fetching (cloud : Cloud) (factory : Fetch.Factory) (cancelAt : Option Nat) : Run :=
  fun job => (Fetch.fetch cloud factory cancelAt job).outcome

theorem fetching_ok {job : Fetch.Job} {outcome : Fetch.Outcome} (hroot : world.files.Rooted)
    (h : (fetching cloud factory cancelAt job).run world = (.ok outcome, after)) :
    Fetch.Settles cloud job world after :=
  Fetch.fetch_ok hroot h

/-- Fetches that succeed name the owners that follow from the configuration. -/
def Naming (run : Run) : Prop :=
  ∀ job world outcome after, (run job).run world = (.ok outcome, after) →
    outcome.filenames = job.filenames

theorem fetching_naming (cloud : Cloud) (factory : Fetch.Factory) (cancelAt : Option Nat) :
    Naming (fetching cloud factory cancelAt) :=
  fun _ _ _ _ h => Fetch.fetch_filenames h

/-! ## 3. One after the other -/

theorem pullInOrder_cons (run : Run) (progress : Progress) (job : Fetch.Job)
    (rest : List Fetch.Job) (world : World) :
    (pullInOrder run progress (job :: rest)).run world =
      match (run job).run world with
      | (.ok outcome, between) => (pullInOrder run (progress.add outcome) rest).run between
      | (.error failure, between) => ({ progress with failure := some failure }, between) := by
  simp only [pullInOrder, StateT.run_bind]
  rcases (run job).run world with ⟨failure | outcome, between⟩ <;> rfl

-- Fetches in order that do not fail have all succeeded.
theorem pullInOrder_ok {progress final : Progress} (hroot : world.files.Rooted)
    (h : (pullInOrder (fetching cloud factory cancelAt) progress jobs).run world = (final, after))
    (hok : final.failure = none) : SettlesAll cloud jobs world after := by
  induction jobs generalizing progress world with
  | nil =>
    have hnil : (progress, world) = (final, after) := h
    rw [Prod.mk.injEq] at hnil
    rw [← hnil.2]
    exact .nil
  | cons job rest ih =>
    rw [pullInOrder_cons] at h
    rcases hrun : (fetching cloud factory cancelAt job).run world with ⟨failure | outcome, between⟩
    · rw [hrun, Prod.mk.injEq] at h
      rw [← h.1] at hok
      simp at hok
    · rw [hrun] at h
      have hfirst := fetching_ok hroot hrun
      exact .cons hfirst (ih (hfirst.kept.rooted hroot) h)

theorem pullInOrder_filenames {run : Run} {progress final : Progress} (hnaming : Naming run)
    (h : (pullInOrder run progress jobs).run world = (final, after)) (hok : final.failure = none) :
    final.filenames = ownersAfter progress.filenames jobs := by
  induction jobs generalizing progress world with
  | nil =>
    have hnil : (progress, world) = (final, after) := h
    rw [Prod.mk.injEq] at hnil
    rw [← hnil.1]
    rfl
  | cons job rest ih =>
    rw [pullInOrder_cons] at h
    rcases hrun : (run job).run world with ⟨failure | outcome, between⟩
    · rw [hrun, Prod.mk.injEq] at h
      rw [← h.1] at hok
      simp at hok
    · rw [hrun] at h
      rw [ih h, Progress.add, hnaming job world outcome between hrun]
      rfl

/-! ## 4. Several at a time -/

theorem watchAll_cons (run : Run) (jobs : List Fetch.Job) (withheld : List Nat) (watch : Watch)
    (position : Nat) (rest : List Nat) (world : World) :
    (watchAll run jobs withheld watch (position :: rest)).run world =
      match jobs[position]? with
      | none => (watchAll run jobs withheld watch rest).run world
      | some job =>
        if position ∈ watch.cancelled then (watchAll run jobs withheld watch rest).run world
        else
          match (run job).run world with
          | (result, between) =>
            (watchAll run jobs withheld (watch.notice withheld position result) rest).run
              ((logFailure (watch.logLine? job.backend.bucket result)).run between).2 := by
  rw [watchAll]
  cases hjob : jobs[position]? with
  | none => rfl
  | some job =>
    by_cases hcancelled : position ∈ watch.cancelled
    · simp only [if_pos hcancelled]
    · simp only [if_neg hcancelled, StateT.run_bind]
      rcases (run job).run world with ⟨result, between⟩
      rfl

def Watch.Clean (watch : Watch) : Prop :=
  watch.errors = [] ∧ watch.escaped = .none

-- A failure that is noticed is not forgotten.
theorem clean_of_notice {watch : Watch} {withheld : List Nat} {position : Nat} {result : Fetched}
    (h : (watch.notice withheld position result).Clean) :
    watch.Clean ∧ ∃ outcome, result = .ok outcome ∧ watch.notice withheld position result =
      { watch with outcomes := Entries.put position outcome watch.outcomes } := by
  obtain ⟨herrors, hescaped⟩ := h
  unfold Watch.notice at herrors hescaped ⊢
  split at herrors
  · rename_i hsome
    rw [if_pos hsome] at hescaped
    simp [hescaped] at hsome
  · rename_i hnone
    rw [if_neg hnone] at hescaped ⊢
    have hescaped' : watch.escaped = none := by simpa using hnone
    split at herrors
    · exact ⟨⟨herrors, hescaped'⟩, _, rfl, rfl⟩
    · split at herrors
      · rename_i e _
        exfalso
        cases hwatch : watch.errors with
        | nil => simp [hwatch, Entries.put] at herrors
        | cons entry rest =>
          simp only [hwatch, Entries.put] at herrors
          split at herrors <;> simp at herrors
      · rename_i hfetch
        simp [hfetch] at hescaped
    · simp at hescaped

section Watching

variable {run : Run} {withheld : List Nat} {watch final : Watch} {position : Nat}
  {order rest : List Nat}

theorem clean_of_watchAll
    (h : (watchAll run jobs withheld watch order).run world = (final, after))
    (hfinal : final.Clean) : watch.Clean := by
  induction order generalizing watch world with
  | nil =>
    have hnil : (watch, world) = (final, after) := h
    rw [Prod.mk.injEq] at hnil
    rwa [hnil.1]
  | cons position rest ih =>
    rw [watchAll_cons] at h
    split at h
    · exact ih h
    · split at h
      · exact ih h
      · exact (clean_of_notice (ih h)).1

-- As long as no fetch fails none is cancelled, so the next one runs and succeeds.
theorem watchAll_cons_ok
    (h : (watchAll run jobs withheld watch (position :: rest)).run world = (final, after))
    (hfinal : final.Clean) (hfree : watch.cancelled = []) :
    (jobs[position]? = none ∧ (watchAll run jobs withheld watch rest).run world = (final, after)) ∨
      ∃ job outcome between, jobs[position]? = some job ∧
        (run job).run world = (.ok outcome, between) ∧
        (watchAll run jobs withheld
          { watch with outcomes := Entries.put position outcome watch.outcomes } rest).run
            between = (final, after) := by
  rw [watchAll_cons] at h
  split at h
  · rename_i hjob
    exact .inl ⟨hjob, h⟩
  · rename_i job hjob
    rw [if_neg (by simp [hfree])] at h
    rcases hrun : (run job).run world with ⟨result, between⟩
    rw [hrun] at h
    simp only at h
    obtain ⟨-, outcome, rfl, hnotice⟩ := clean_of_notice (clean_of_watchAll h hfinal)
    -- Nothing is logged for a fetch that succeeds.
    have hsilent : ((logFailure (watch.logLine? job.backend.bucket (.ok outcome))).run
        between).2 = between := by
      simp only [Watch.logLine?]
      split <;> rfl
    rw [hsilent, hnotice] at h
    exact .inr ⟨job, outcome, between, hjob, hrun, h⟩

-- Fetches that are watched and do not fail have all succeeded, in the order in which they end.
theorem watchAll_ok (hroot : world.files.Rooted)
    (h : (watchAll (fetching cloud factory cancelAt) jobs withheld watch order).run world =
      (final, after)) (hfinal : final.Clean) (hfree : watch.cancelled = []) :
    SettlesAll cloud (order.filterMap (jobs[·]?)) world after := by
  induction order generalizing watch world with
  | nil =>
    have hnil : (watch, world) = (final, after) := h
    rw [Prod.mk.injEq] at hnil
    rw [← hnil.2]
    exact .nil
  | cons position rest ih =>
    rcases watchAll_cons_ok h hfinal hfree with ⟨hjob, h⟩ | ⟨job, outcome, between, hjob, hrun, h⟩
    · rw [List.filterMap_cons_none hjob]
      exact ih hroot h hfree
    · have hfirst := fetching_ok hroot hrun
      rw [List.filterMap_cons_some hjob]
      exact .cons hfirst (ih (hfirst.kept.rooted hroot) h hfree)

/-- What is noticed while no fetch fails: every outcome is that of the job at its position. -/
def Watch.Names (jobs : List Fetch.Job) (watch : Watch) : Prop :=
  ∀ position outcome, Entries.get? position watch.outcomes = some outcome →
    ∃ job, jobs[position]? = some job ∧ outcome.filenames = job.filenames

-- Of fetches that are watched and do not fail every outcome is noticed at its position.
theorem watchAll_names (hnaming : Naming run)
    (h : (watchAll run jobs withheld watch order).run world = (final, after))
    (hfinal : final.Clean) (hfree : watch.cancelled = []) (hnames : watch.Names jobs) :
    final.Names jobs ∧ ∀ position, position < jobs.length →
      position ∈ order ∨ Entries.get? position watch.outcomes ≠ none →
      Entries.get? position final.outcomes ≠ none := by
  induction order generalizing watch world with
  | nil =>
    have hnil : (watch, world) = (final, after) := h
    rw [Prod.mk.injEq] at hnil
    rw [← hnil.1]
    exact ⟨hnames, by simp⟩
  | cons position rest ih =>
    rcases watchAll_cons_ok h hfinal hfree with ⟨hjob, h⟩ | ⟨job, outcome, between, hjob, hrun, h⟩
    · obtain ⟨hfinalNames, hcomplete⟩ := ih h hfree hnames
      refine ⟨hfinalNames, fun other hlt hother => ?_⟩
      refine hcomplete other hlt (hother.imp_left fun hmem => ?_)
      rcases List.mem_cons.mp hmem with rfl | hmem
      · rw [List.getElem?_eq_none_iff] at hjob
        omega
      · exact hmem
    · have hjobNames := hnaming job world outcome between hrun
      obtain ⟨hfinalNames, hcomplete⟩ := ih h hfree (by
        intro other found hfound
        rw [Entries.get?_put] at hfound
        split at hfound
        · rename_i hother
          rw [Option.some.injEq] at hfound
          exact ⟨job, hother ▸ hjob, hfound ▸ hjobNames⟩
        · exact hnames other found hfound)
      refine ⟨hfinalNames, fun other hlt hother => ?_⟩
      apply hcomplete other hlt
      rw [Entries.get?_put]
      by_cases hposition : position = other
      · right
        simp [hposition]
      · rw [if_neg hposition]
        refine hother.imp_left fun hmem => ?_
        exact (List.mem_cons.mp hmem).resolve_left (Ne.symm hposition)

-- Merging clean outcomes adds the owners of the jobs in their order.
theorem merge_clean {watch : Watch} (hclean : watch.Clean) (hnames : watch.Names jobs)
    (hcomplete : ∀ position, position < jobs.length →
      Entries.get? position watch.outcomes ≠ none)
    (positions : List Nat) (hpositions : ∀ position ∈ positions, position < jobs.length)
    (progress : Progress) (hprogress : progress.failure = none) :
    (watch.merge progress positions).failure = none ∧
      (watch.merge progress positions).filenames =
        ownersAfter progress.filenames (positions.filterMap (jobs[·]?)) := by
  induction positions generalizing progress with
  | nil => exact ⟨hprogress, rfl⟩
  | cons position rest ih =>
    have hlt := hpositions position (by simp)
    have herror : Entries.get? position watch.errors = none := by
      rw [hclean.1]
      rfl
    rcases hget : Entries.get? position watch.outcomes with _ | outcome
    · exact absurd hget (hcomplete position hlt)
    obtain ⟨job, hjob, hfilenames⟩ := hnames position outcome hget
    obtain ⟨hfailure, howners⟩ := ih (fun other hother => hpositions other
      (List.mem_cons_of_mem _ hother)) (progress.add outcome) hprogress
    simp only [Watch.merge, herror, hget]
    refine ⟨hfailure, howners.trans ?_⟩
    rw [List.filterMap_cons_some hjob, Progress.add, hfilenames]
    rfl

-- A merge that does not fail has met no error.
theorem errors_of_merge {watch : Watch} {positions : List Nat} {progress : Progress}
    (h : (watch.merge progress positions).failure = none) :
    ∀ position ∈ positions, Entries.get? position watch.errors = none := by
  induction positions generalizing progress with
  | nil => simp
  | cons position rest ih =>
    simp only [Watch.merge] at h
    cases herror : Entries.get? position watch.errors with
    | some e => simp [herror] at h
    | none =>
      have hrest : ∀ other ∈ rest, Entries.get? other watch.errors = none := by
        simp only [herror] at h
        split at h
        · exact ih h
        · exact ih h
      intro other hother
      rcases List.mem_cons.mp hother with rfl | hother
      · exact herror
      · exact hrest other hother

-- Errors are noticed at positions of jobs alone.
theorem errors_lt_of_watchAll
    (h : (watchAll run jobs withheld watch order).run world = (final, after))
    (hbefore : ∀ position, Entries.get? position watch.errors ≠ none → position < jobs.length) :
    ∀ position, Entries.get? position final.errors ≠ none → position < jobs.length := by
  induction order generalizing watch world with
  | nil =>
    have hnil : (watch, world) = (final, after) := h
    rw [Prod.mk.injEq] at hnil
    rwa [← hnil.1]
  | cons position rest ih =>
    rw [watchAll_cons] at h
    split at h
    · exact ih h hbefore
    · rename_i job hjob
      have hlt : position < jobs.length := (List.getElem?_eq_some_iff.mp hjob).1
      split at h
      · exact ih h hbefore
      · refine ih h fun other hother => ?_
        unfold Watch.notice at hother
        split at hother
        · exact hbefore other hother
        · split at hother
          · exact hbefore other hother
          · split at hother
            · rw [Entries.get?_put] at hother
              split at hother
              · rename_i hposition
                rwa [← hposition]
              · exact hbefore other hother
            · exact hbefore other hother
          · exact hbefore other hother

end Watching

theorem pullTogether_run (run : Run) (schedule : Schedule) (jobs : List Fetch.Job)
    (world : World) : (pullTogether run schedule jobs).run world =
      match (watchAll run jobs schedule.withheld .none schedule.order).run world with
      | (watch, between) =>
        match watch.escaped with
        | some failure => ({ Progress.none with failure := some failure }, between)
        | none => (watch.merge .none (List.range jobs.length), between) := by
  simp only [pullTogether, StateT.run_bind]
  rcases (watchAll run jobs schedule.withheld .none schedule.order).run world with
    ⟨⟨outcomes, errors, cancelled, escaped⟩, between⟩
  cases escaped <;> rfl

-- Several fetches at a time that do not fail leave a clean watch, and their outcomes are merged.
theorem pullTogether_clean {run : Run} {schedule : Schedule} {progress : Progress}
    (h : (pullTogether run schedule jobs).run world = (progress, after))
    (hok : progress.failure = none) :
    ∃ watch, (watchAll run jobs schedule.withheld .none schedule.order).run world =
        (watch, after) ∧ watch.Clean ∧ progress = watch.merge .none (List.range jobs.length) := by
  rw [pullTogether_run] at h
  rcases hwatch : (watchAll run jobs schedule.withheld .none schedule.order).run world with
    ⟨watch, between⟩
  rw [hwatch] at h
  cases hescaped : watch.escaped with
  | some failure =>
    simp only [hescaped] at h
    rw [Prod.mk.injEq] at h
    rw [← h.1] at hok
    simp at hok
  | none =>
    simp only [hescaped] at h
    rw [Prod.mk.injEq] at h
    obtain ⟨rfl, rfl⟩ := h
    refine ⟨watch, rfl, ⟨?_, hescaped⟩, rfl⟩
    -- The merge looks at every position of a job and stops at an error, and there are errors at
    -- such positions only.
    have hlt := errors_lt_of_watchAll hwatch (by simp [Watch.none, Entries.get?])
    cases herrors : watch.errors with
    | nil => rfl
    | cons entry rest =>
      have hentry : Entries.get? entry.1 watch.errors ≠ none := by
        simp [herrors, Entries.get?]
      exact absurd (errors_of_merge hok entry.1
        (List.mem_range.mpr (hlt entry.1 hentry))) hentry

theorem filterMap_range_getElem? {α : Type} (items : List α) :
    (List.range items.length).filterMap (items[·]?) = items := by
  induction items with
  | nil => rfl
  | cons item rest ih =>
    rw [List.length_cons, List.range_succ_eq_map, List.filterMap_cons_some (by rfl),
      List.filterMap_map]
    exact congrArg (item :: ·) ih

-- Several fetches at a time that do not fail name the owners in the order of the jobs.
theorem pullTogether_filenames {run : Run} {schedule : Schedule} {progress : Progress}
    (hnaming : Naming run) (horder : schedule.order.Perm (List.range jobs.length))
    (h : (pullTogether run schedule jobs).run world = (progress, after))
    (hok : progress.failure = none) : progress.filenames = ownersAfter ∅ jobs := by
  obtain ⟨watch, hwatch, hclean, rfl⟩ := pullTogether_clean h hok
  obtain ⟨hnames, hcomplete⟩ := watchAll_names hnaming hwatch hclean rfl
    (by simp [Watch.Names, Watch.none, Entries.get?])
  have hall : ∀ position, position < jobs.length →
      Entries.get? position watch.outcomes ≠ none := fun position hlt =>
    hcomplete position hlt (.inl (horder.mem_iff.mpr (List.mem_range.mpr hlt)))
  have hmerge := (merge_clean hclean hnames hall (List.range jobs.length)
    (fun position hposition => List.mem_range.mp hposition) .none rfl).2
  rwa [filterMap_range_getElem?] at hmerge

/-- The fetches of a pull in the order in which they end. -/
def ended (workers : Nat) (schedule : Schedule) (jobs : List Fetch.Job) : List Fetch.Job :=
  if workers = 1 ∨ jobs.length = 1 then jobs else schedule.order.filterMap (jobs[·]?)

theorem ended_perm {workers : Nat} {schedule : Schedule}
    (horder : workers ≠ 1 → schedule.order.Perm (List.range jobs.length)) :
    (ended workers schedule jobs).Perm jobs := by
  unfold ended
  split
  · exact .refl _
  · rename_i hmany
    have hperm := (horder fun hone => hmany (.inl hone)).filterMap (jobs[·]?)
    rwa [filterMap_range_getElem?] at hperm

-- Fetches that do not fail have all succeeded, in the order in which they end.
theorem pullAll_ok {workers : Nat} {schedule : Schedule} {progress : Progress}
    (hroot : world.files.Rooted)
    (h : (pullAll (fetching cloud factory cancelAt) workers schedule jobs).run world =
      (progress, after)) (hok : progress.failure = none) :
    SettlesAll cloud (ended workers schedule jobs) world after := by
  unfold pullAll at h
  unfold ended
  split
  · rename_i hone
    rw [if_pos hone] at h
    exact pullInOrder_ok hroot h hok
  · rename_i hmany
    rw [if_neg hmany] at h
    obtain ⟨watch, hwatch, hclean, -⟩ := pullTogether_clean h hok
    exact watchAll_ok hroot hwatch hclean rfl

theorem pullAll_filenames {run : Run} {workers : Nat} {schedule : Schedule} {progress : Progress}
    (hnaming : Naming run)
    (horder : workers ≠ 1 → schedule.order.Perm (List.range jobs.length))
    (h : (pullAll run workers schedule jobs).run world = (progress, after))
    (hok : progress.failure = none) : progress.filenames = ownersAfter ∅ jobs := by
  unfold pullAll at h
  split at h
  · exact pullInOrder_filenames hnaming h hok
  · rename_i hmany
    exact pullTogether_filenames hnaming (horder fun hone => hmany (.inl hone)) h hok

end Fetching

/-! ## 5. The whole pull -/

-- The fetches of a cache are the same in the order in which they end.
theorem ended_jobs_perm {cache : Cache} {schedule : Schedule}
    (horder : cache.workers ≠ 1 →
      schedule.order.Perm (List.range cache.config.backends.length)) :
    (ended cache.workers schedule cache.jobs).Perm cache.jobs := by
  apply ended_perm
  rwa [jobs, List.length_map]

theorem jobs_withOptions (cache : Cache) (filenames : OrderedMap Text Text) :
    ({ cache with config := cache.config.withOptions, filenames := filenames } : Cache).jobs =
      cache.jobs := rfl

-- Validating a valid configuration sets its options and at most says so.
theorem validated_run {config : Config} (h : config.check = .ok ()) (world : World) :
    ∃ after, config.validated.runIn world = (.ok config.withOptions, after) ∧
      World.Alike world after := by
  have hvalid : config.validate = .ok config.withOptions := by
    rw [Config.validate, h]
  simp only [Config.validated, hvalid]
  split
  · exact ⟨_, rfl, .record _ _⟩
  · exact ⟨_, rfl, .refl _⟩

theorem record_run (level : Log.Level) (message : Text) (cache : Cache) (world : World) :
    (record level message).runOn cache world =
      (.ok (), cache, world.record ⟨level, Log.registrySource, message⟩) := rfl

/-- The world in which the fetches of a pull begin: the configuration was validated, and the log says
what comes. -/
def announced (cache : Cache) (world : World) : World :=
  (cache.config.validated.runIn world).2.record ⟨Log.info, Log.registrySource,
    "Pulling state from " ++ Text.ofNat cache.config.backends.length ++ " backend(s)"⟩

/-- What a pull ends with after its fetches. -/
def concluded (cache : Cache) (progress : Progress) (world : World) :
    Except Failure (List Fetch.Outcome) × Cache × World :=
  let after := { cache with
    config := cache.config.withOptions
    filenames := progress.filenames }
  match progress.failure with
  | some failure => (.error failure, after, world)
  | none => (.ok progress.outcomes, after, world.record ⟨Log.info, Log.registrySource,
      "Pulled " ++ Text.ofNat progress.filenames.size ++ " state file(s)"⟩)

section Pulling

variable {cloud : Cloud} {factory : Fetch.Factory} {cancelAt : Option Nat} {schedule : Schedule}
  {cache after : Cache} {world final : World} {outcomes : List Fetch.Outcome}

theorem announced_alike (hvalid : cache.config.check = .ok ()) (world : World) :
    World.Alike world (announced cache world) := by
  obtain ⟨validated, hvalidate, hquiet⟩ := validated_run hvalid world
  rw [announced, hvalidate]
  exact hquiet.trans (.record _ _)

-- A pull of a valid configuration runs its fetches.
theorem pullValid_run (run : Run) (schedule : Schedule) (hvalid : cache.config.check = .ok ())
    (world : World) : (pullValid run schedule).runOn cache world =
      match (pullAll run cache.workers schedule cache.jobs).run (announced cache world) with
      | (progress, pulled) => concluded cache progress pulled := by
  obtain ⟨validated, hvalidate, -⟩ := validated_run hvalid world
  have hannounced : announced cache world = validated.record ⟨Log.info, Log.registrySource,
      "Pulling state from " ++ Text.ofNat cache.config.withOptions.backends.length ++
        " backend(s)"⟩ := by
    rw [announced, hvalidate]
    rfl
  simp only [pullValid, validate, Step.runOn_bind, Step.runOn_get, Step.runOn_ofAction, hvalidate,
    Step.runOn_modify, record_run, Action.runIn_lift]
  rw [jobs_withOptions, ← hannounced]
  rcases (pullAll run cache.workers schedule cache.jobs).run (announced cache world) with
    ⟨⟨outcomes, filenames, failure⟩, pulled⟩
  cases failure <;> rfl

theorem pull_eq_pullValid (hvalid : cache.config.check = .ok ()) (world : World) :
    (pull cloud factory cancelAt schedule).runOn cache world =
      (pullValid (fetching cloud factory cancelAt) schedule).runOn cache world := by
  rw [pull, Step.runOn_bind, Step.runOn_get]
  simp only [Config.validate, hvalid]
  rfl

-- A pull that succeeds has run fetches that did not fail.
theorem pull_inv (hvalid : cache.config.check = .ok ())
    (h : (pull cloud factory cancelAt schedule).runOn cache world = (.ok outcomes, after, final)) :
    ∃ progress pulled,
      (pullAll (fetching cloud factory cancelAt) cache.workers schedule cache.jobs).run
        (announced cache world) = (progress, pulled) ∧ progress.failure = none ∧
      World.Alike pulled final ∧ after = { cache with
        config := cache.config.withOptions
        filenames := progress.filenames } := by
  rw [pull_eq_pullValid hvalid, pullValid_run _ _ hvalid] at h
  rcases hall : (pullAll (fetching cloud factory cancelAt) cache.workers schedule cache.jobs).run
    (announced cache world) with ⟨progress, pulled⟩
  rw [hall] at h
  refine ⟨progress, pulled, rfl, ?_⟩
  cases hfailure : progress.failure with
  | some failure =>
    simp only [concluded, hfailure] at h
    simp at h
  | none =>
    simp only [concluded, hfailure, Prod.mk.injEq] at h
    obtain ⟨-, rfl, rfl⟩ := h
    exact ⟨rfl, .record _ _, rfl⟩

/-- The cache after a pull that succeeds follows from the configuration alone. -/
theorem pull_cache (hvalid : cache.config.check = .ok ())
    (horder : cache.workers ≠ 1 →
      schedule.order.Perm (List.range cache.config.backends.length))
    (h : (pull cloud factory cancelAt schedule).runOn cache world = (.ok outcomes, after, final)) :
    after = { cache with
      config := cache.config.withOptions
      filenames := cache.configured } := by
  obtain ⟨progress, pulled, hall, hfailure, -, rfl⟩ := pull_inv hvalid h
  have hjobs : cache.jobs.length = cache.config.backends.length := List.length_map _
  rw [configured_eq, pullAll_filenames (fetching_naming cloud factory cancelAt)
    (hjobs.symm ▸ horder) hall hfailure]

/-- **A pull that succeeds has fetched every backend**, in the order in which the fetches end. -/
theorem pull_ok (hvalid : cache.config.check = .ok ()) (hroot : world.files.Rooted)
    (h : (pull cloud factory cancelAt schedule).runOn cache world = (.ok outcomes, after, final)) :
    ∃ before pulled, World.Alike world before ∧
      SettlesAll cloud (ended cache.workers schedule cache.jobs) before pulled ∧
      World.Alike pulled final := by
  obtain ⟨progress, pulled, hall, hfailure, hfinal, -⟩ := pull_inv hvalid h
  have hannounced := announced_alike hvalid world
  exact ⟨_, pulled, hannounced, pullAll_ok (hannounced.kept.rooted hroot) hall hfailure, hfinal⟩

end Pulling
end StateOwnership.Cache
