import StateOwnership.Proofs.Cache.Attribution
import StateOwnership.Proofs.Fetch.Sparing

/-!
# What a pull leaves alone

What every fetch and every log record keeps, a pull keeps, however it is scheduled and however it
ends. **Without overwriting a pull changes and removes no file that was there; with it, only files at
the places of configured copies. It removes no directory.** The files of the log are written to, but
stay.
-/

namespace StateOwnership.Cache

/-! ## 1. Invariants of pulls -/

section Invariants

variable {Inv : World → Prop} {run : Run} {jobs : List Fetch.Job} {world : World}

theorem pullInOrder_invariant
    (hrun : ∀ job ∈ jobs, ∀ world, Inv world → Inv ((run job).run world).2)
    (progress : Progress) (h : Inv world) : Inv ((pullInOrder run progress jobs).run world).2 := by
  induction jobs generalizing progress world with
  | nil => exact h
  | cons job rest ih =>
    have hfirst := hrun job List.mem_cons_self world h
    rw [pullInOrder_cons]
    rcases hresult : (run job).run world with ⟨failure | outcome, between⟩
    · rw [hresult] at hfirst
      exact hfirst
    · rw [hresult] at hfirst
      exact ih (fun job hjob => hrun job (List.mem_cons_of_mem _ hjob)) _ hfirst

theorem logFailure_invariant (hrecord : ∀ world r, Inv world → Inv (world.record r))
    (line : Option Text) (h : Inv world) : Inv ((logFailure line).run world).2 := by
  cases line with
  | none => exact h
  | some line => exact hrecord world _ h

theorem watchAll_invariant
    (hrun : ∀ job ∈ jobs, ∀ world, Inv world → Inv ((run job).run world).2)
    (hrecord : ∀ world r, Inv world → Inv (world.record r)) (withheld : List Nat) (watch : Watch)
    (order : List Nat) (h : Inv world) :
    Inv ((watchAll run jobs withheld watch order).run world).2 := by
  induction order generalizing watch world with
  | nil => exact h
  | cons position rest ih =>
    rw [watchAll_cons]
    split
    · exact ih watch h
    · rename_i job hjob
      split
      · exact ih watch h
      · have hfirst := hrun job (List.mem_of_getElem? hjob) world h
        exact ih _ (logFailure_invariant hrecord _ hfirst)

-- What every fetch and every record keeps, all fetches together keep.
theorem pullAll_invariant
    (hrun : ∀ job ∈ jobs, ∀ world, Inv world → Inv ((run job).run world).2)
    (hrecord : ∀ world r, Inv world → Inv (world.record r)) (workers : Nat) (schedule : Schedule)
    (h : Inv world) : Inv ((pullAll run workers schedule jobs).run world).2 := by
  unfold pullAll
  split
  · exact pullInOrder_invariant hrun _ h
  · have hwatched := watchAll_invariant hrun hrecord schedule.withheld .none schedule.order h
    rw [pullTogether_run]
    rcases hwatch : (watchAll run jobs schedule.withheld .none schedule.order).run world with
      ⟨watch, between⟩
    rw [hwatch] at hwatched
    cases hescaped : watch.escaped <;> simpa only [hescaped] using hwatched

-- What every fetch and every record keeps, a pull keeps, whatever the configuration is.
theorem pull_invariant {cloud : Cloud} {factory : Fetch.Factory} {cancelAt : Option Nat}
    {cache : Cache}
    (hrun : ∀ job ∈ cache.jobs, ∀ world, Inv world →
      Inv ((fetching cloud factory cancelAt job).run world).2)
    (hrecord : ∀ world r, Inv world → Inv (world.record r)) (schedule : Schedule)
    (h : Inv world) : Inv ((pull cloud factory cancelAt schedule).runOn cache world).2.2 := by
  cases hcheck : cache.config.check with
  | error fault =>
    rw [pull, Step.runOn_bind, Step.runOn_get]
    simp only [Config.validate, hcheck]
    split
    · exact h
    · exact hrecord world _ h
  | ok u =>
    have hannounced : Inv (announced cache world) := by
      rw [announced, Config.validated]
      simp only [Config.validate, hcheck]
      apply hrecord
      split
      · exact hrecord world _ h
      · exact h
    have hpulled := pullAll_invariant hrun hrecord cache.workers schedule hannounced
    rw [pull_eq_pullValid hcheck, pullValid_run _ _ hcheck]
    rcases hall : (pullAll (fetching cloud factory cancelAt) cache.workers schedule cache.jobs).run
      (announced cache world) with ⟨progress, pulled⟩
    rw [hall] at hpulled
    cases hfailure : progress.failure with
    | none => simpa only [concluded, hfailure] using hrecord pulled _ hpulled
    | some failure => simpa only [concluded, hfailure] using hpulled

end Invariants

/-! ## 2. What fetches spare together -/

/-- A world that fetches have come to, whatever they have done since the first of them began. -/
structure Sparing (jobs : List Fetch.Job) (base world : World) : Prop where
  files : FileTree.Spared (fun loc => ∃ job ∈ jobs, job.LeadsThrough base.files.start loc)
    (fun loc => ∃ job ∈ jobs, job.MayOpen base.files loc) base.log.places base.files world.files
  log_eq : world.log = base.log

namespace Sparing

variable {jobs : List Fetch.Job} {base world : World}

theorem refl (jobs : List Fetch.Job) (world : World) : Sparing jobs world world :=
  ⟨.refl _ _ _ _, rfl⟩

theorem record (h : Sparing jobs base world) (r : Log.Record) :
    Sparing jobs base (world.record r) :=
  ⟨h.files.trans (.of_rewritten (h.log_eq ▸ (World.Alike.record world r).files)), h.log_eq⟩

-- A fetch opens no file that was there before all fetches, unless one of them overwrites it.
theorem fetch (h : Sparing jobs base world) {job : Fetch.Job} (hjob : job ∈ jobs) (cloud : Cloud)
    (factory : Fetch.Factory) (cancelAt : Option Nat) :
    Sparing jobs base ((fetching cloud factory cancelAt job).run world).2 := by
  obtain ⟨hspared, hlog⟩ := Fetch.fetch_sparing cloud factory cancelAt job world
  rw [h.log_eq] at hspared
  refine ⟨h.files.trans (hspared.mono (fun loc hloc => ⟨job, hjob, ?_⟩) fun loc hloc => ?_),
    hlog.trans h.log_eq⟩
  · rwa [← h.files.start_eq]
  · by_cases hopened : ∃ other ∈ jobs, other.MayOpen base.files loc
    · exact hopened
    · obtain ⟨key, hkey, hplace, htrail, hfree⟩ := hloc
      rw [h.files.start_eq] at hplace htrail
      refine ⟨job, hjob, key, hkey, hplace, htrail, fun hkeep hfile => hfree hkeep ?_⟩
      exact (h.files.file_iff hopened).mpr hfile

end Sparing

/-! ## 3. What a pull spares -/

section Pulls

variable {cloud : Cloud} {factory : Fetch.Factory} {cancelAt : Option Nat} {schedule : Schedule}
  {cache : Cache} {world : World}

theorem pull_sparing (cloud : Cloud) (factory : Fetch.Factory) (cancelAt : Option Nat)
    (schedule : Schedule) (cache : Cache) (world : World) :
    Sparing cache.jobs world ((pull cloud factory cancelAt schedule).runOn cache world).2.2 :=
  pull_invariant (fun _ hjob _ h => h.fetch hjob cloud factory cancelAt) (fun _ r h => h.record r)
    schedule (.refl cache.jobs world)

/-- **A pull spares what it has not to write**, for any configuration and however it ends. Without
overwriting every file that was there stays, with what it held unless the log is written to it; with
overwriting or without, the same files as before are at every location where no configured copy
stands; and no directory goes. -/
theorem pull_spares (cloud : Cloud) (factory : Fetch.Factory) (cancelAt : Option Nat)
    (schedule : Schedule) (cache : Cache) (world : World) :
    let after := ((pull cloud factory cancelAt schedule).runOn cache world).2.2
    (cache.config.effectiveOptions.overwrite = false → ∀ loc content,
        world.files.get? loc = some (.file content) →
        ∃ found, after.files.get? loc = some (.file found) ∧
          (loc ∉ world.log.places → found = content)) ∧
      (∀ loc, (∀ x ∈ cache.listed, x.place world.files.start ≠ loc) →
        (after.files.kind? loc = some .file ↔ world.files.kind? loc = some .file) ∧
          (loc ∉ world.log.places → ∀ content, after.files.get? loc = some (.file content) ↔
            world.files.get? loc = some (.file content))) ∧
      ∀ loc, world.files.get? loc = some .directory → after.files.get? loc = some .directory := by
  intro after
  obtain ⟨hspared, -⟩ : Sparing cache.jobs world after :=
    pull_sparing cloud factory cancelAt schedule cache world
  refine ⟨fun hkeep loc content hget => ?_, fun loc haway => ?_, fun loc hdir => ?_⟩
  · have hfile : world.files.kind? loc = some .file := FileTree.kind?_eq_file.mpr ⟨content, hget⟩
    have hclosed : ¬ ∃ job ∈ cache.jobs, job.MayOpen world.files loc := by
      rintro ⟨job, hjob, -, -, -, -, hfree⟩
      exact hfree (by rw [options_of_mem_jobs hjob, hkeep]) hfile
    obtain ⟨found, hfound⟩ := FileTree.kind?_eq_file.mp ((hspared.file_iff hclosed).mpr hfile)
    refine ⟨found, hfound, fun hlog => ?_⟩
    have hsame := hspared.get?_eq loc hclosed hlog hfile
    rw [hfound, hget] at hsame
    simpa using hsame
  · have hclosed : ¬ ∃ job ∈ cache.jobs, job.MayOpen world.files loc := by
      rintro ⟨job, hjob, key, hkey, hplace, -, -⟩
      exact haway ⟨job, key⟩ (Listed.mem_ofJobs.mpr ⟨hjob, hkey⟩) hplace
    have hiff := hspared.file_iff hclosed
    refine ⟨hiff, fun hlog content => ⟨fun hafter => ?_, fun hbefore => ?_⟩⟩
    · have hfile := hiff.mp (FileTree.kind?_eq_file.mpr ⟨content, hafter⟩)
      rw [← hspared.get?_eq loc hclosed hlog hfile, hafter]
    · have hfile := FileTree.kind?_eq_file.mpr ⟨content, hbefore⟩
      rw [hspared.get?_eq loc hclosed hlog hfile, hbefore]
  · exact FileTree.kind?_eq_directory.mp
      (hspared.directory loc (FileTree.kind?_eq_directory.mpr hdir))

end Pulls

/-- A world in which the copy of `a` is there, with other content than the object's. -/
def copiedWorld : World :=
  { sampleWorld with
    files := ((sampleWorld.files.set ["w", "d"] .directory).set ["w", "d", "b"] .directory).set
      ["w", "d", "b", "a"] (.file [1]) }

/-- A pull that fails at a name too long removes the file that it had opened before, and spares the
copy that was there. -/
theorem spared_by_failed_pull :
    let run := (pull spellingCloud .standard none (.inOrder 1)).runOn
      (sampleCache ["a", "e", List.replicate 256 0x78] false) copiedWorld
    run.1.toBool = false ∧ run.2.2.files.get? ["w", "d", "b", "a"] = some (.file [1]) ∧
      run.2.2.files.get? ["w", "d", "b", "e"] = none ∧
      run.2.2.files.get? ["w", "d", "b"] = some .directory := by
  obtain ⟨hkept, -, hdirs⟩ := pull_spares spellingCloud .standard none (.inOrder 1)
    (sampleCache ["a", "e", List.replicate 256 0x78] false) copiedWorld
  obtain ⟨found, hfound, hsame⟩ := hkept (by decide) ["w", "d", "b", "a"] [1] (by decide)
  refine ⟨by decide +kernel, ?_, by decide +kernel, hdirs _ (by decide)⟩
  rw [hfound, hsame (by decide)]

end StateOwnership.Cache
