import StateOwnership.Proofs.Cache.Boundaries

/-!
# Pulls that stop

A pull with one worker fetches the backends in order and stops at the first whose fetch fails, for
whatever reason. **The pull ends with that failure in the world in which that fetch ended, and knows
the owners of the backends before.** If no two backends have a copy at one location, the copies of
those before stand as they stood when their own fetches ended: neither later fetches nor the clean-up
of the one that failed come near them.
-/

namespace StateOwnership.Cache

/-! ## 1. Fetches in order -/

/-- The world after fetches have run one after the other, however each of them ended. -/
def worldAfter (run : Run) (jobs : List Fetch.Job) (world : World) : World :=
  jobs.foldl (fun world job => ((run job).run world).2) world

/-- The first fetch that fails is the one at a position: those before it succeed, each in the world in
which the one before it ended. -/
structure FirstFails (run : Run) (jobs : List Fetch.Job) (world : World) (position : Nat)
    (failure : Failure) : Prop where
  fails : ∃ job, jobs[position]? = some job ∧
    ((run job).run (worldAfter run (jobs.take position) world)).1 = .error failure
  before : ∀ other job, other < position → jobs[other]? = some job →
    ((run job).run (worldAfter run (jobs.take other) world)).1.toBool = true

section Stopping

variable {run : Run} {job : Fetch.Job} {jobs : List Fetch.Job} {world : World} {position : Nat}
  {failure : Failure}

theorem worldAfter_append (run : Run) (jobs others : List Fetch.Job) (world : World) :
    worldAfter run (jobs ++ others) world = worldAfter run others (worldAfter run jobs world) :=
  List.foldl_append

theorem worldAfter_take_succ (run : Run) (world : World) (hjob : jobs[position]? = some job) :
    worldAfter run (jobs.take (position + 1)) world =
      ((run job).run (worldAfter run (jobs.take position) world)).2 := by
  rw [List.take_add_one, hjob, worldAfter_append]
  rfl

-- Fetches in order stop at the first that fails. By induction on the fetches: those in front of it
-- are added one by one.
theorem pullInOrder_of_firstFails (hnaming : Naming run)
    (h : FirstFails run jobs world position failure) (progress : Progress) :
    ∃ outcomes, (pullInOrder run progress jobs).run world =
      (⟨outcomes, ownersAfter progress.filenames (jobs.take position), some failure⟩,
        worldAfter run (jobs.take (position + 1)) world) := by
  induction jobs generalizing progress position world with
  | nil =>
    obtain ⟨job, hjob, -⟩ := h.fails
    simp at hjob
  | cons job rest ih =>
    rw [pullInOrder_cons]
    cases position with
    | zero =>
      obtain ⟨found, hfound, hfails⟩ := h.fails
      obtain rfl : job = found := by simpa using hfound
      rcases hrun : (run job).run world with ⟨result, between⟩
      obtain rfl : result = .error failure := by
        have hresult := congrArg Prod.fst hrun
        exact hresult.symm.trans hfails
      refine ⟨progress.outcomes, ?_⟩
      simp [worldAfter, hrun, ownersAfter]
    | succ position =>
      have hfirst : ((run job).run world).1.toBool = true := h.before 0 job (Nat.succ_pos _) rfl
      rcases hrun : (run job).run world with ⟨problem | outcome, between⟩
      · rw [hrun] at hfirst
        simp [Except.toBool] at hfirst
      · have hworld (count : Nat) : worldAfter run ((job :: rest).take (count + 1)) world =
            worldAfter run (rest.take count) between := by
          rw [List.take_succ_cons, worldAfter, List.foldl_cons, hrun]
          rfl
        have hrest : FirstFails run rest between position failure := by
          refine ⟨?_, fun other found hlt hfound => ?_⟩
          · obtain ⟨found, hfound, hfails⟩ := h.fails
            exact ⟨found, hfound, by rwa [hworld] at hfails⟩
          · have hbefore := h.before (other + 1) found (Nat.succ_lt_succ hlt) hfound
            rwa [hworld] at hbefore
        obtain ⟨outcomes, hall⟩ := ih hrest (progress.add outcome)
        refine ⟨outcomes, ?_⟩
        have hnames := hnaming job world outcome between hrun
        simp only [hall, hworld]
        simp only [Progress.add, hnames]
        rfl

end Stopping

/-! ## 2. Copies that stay -/

section Staying

variable {cloud : Cloud} {factory : Fetch.Factory} {cancelAt : Option Nat} {job : Fetch.Job}
  {jobs : List Fetch.Job} {base world : World} {key : Text}

theorem sparing_worldAfter (cloud : Cloud) (factory : Fetch.Factory) (cancelAt : Option Nat)
    (jobs : List Fetch.Job) (world : World) :
    Sparing jobs world (worldAfter (fetching cloud factory cancelAt) jobs world) := by
  have hall (others : List Fetch.Job) (hsub : others ⊆ jobs) {between : World}
      (h : Sparing jobs world between) :
      Sparing jobs world (worldAfter (fetching cloud factory cancelAt) others between) := by
    induction others generalizing between with
    | nil => exact h
    | cons job rest ih =>
      exact ih (fun other hother => hsub (List.mem_cons_of_mem _ hother))
        (h.fetch (hsub List.mem_cons_self) cloud factory cancelAt)
  exact hall jobs (List.Subset.refl _) (.refl jobs world)

theorem Sparing.rooted (h : Sparing jobs base world) (hroot : base.files.Rooted) :
    world.files.Rooted := by
  intro loc hloc
  exact h.files.directory loc (hroot loc (h.files.start_eq ▸ hloc))

/-- A copy that is there in both worlds, and holds the same unless the log is written to it. -/
structure Stays (job : Fetch.Job) (key : Text) (base world : World) : Prop where
  located : world.files.locate (job.localPath key) = .ok (job.place base.files.start key)
  there : base.files.get? (job.place base.files.start key) ≠ none
  kind?_eq : world.files.kind? (job.place base.files.start key) =
    base.files.kind? (job.place base.files.start key)
  get?_eq : job.place base.files.start key ∉ base.log.places →
    world.files.get? (job.place base.files.start key) =
      base.files.get? (job.place base.files.start key)

-- A copy stays while fetches run that have no copy at its place.
theorem Sparing.stays (h : Sparing jobs base world) (hroot : base.files.Rooted)
    (hlocate : base.files.locate (job.localPath key) = .ok (job.place base.files.start key))
    (haway : ∀ other ∈ jobs, ∀ found ∈ other.backend.keys,
      other.place base.files.start found ≠ job.place base.files.start key) :
    Stays job key base world := by
  have hthere := FileTree.kind?_of_locate hroot hlocate
  have hclosed : ¬ ∃ other ∈ jobs, other.MayOpen base.files (job.place base.files.start key) := by
    rintro ⟨other, hother, found, hfound, hplace, -⟩
    exact haway other hother found hfound hplace
  have hkind : world.files.kind? (job.place base.files.start key) =
      base.files.kind? (job.place base.files.start key) :=
    (h.files.kind?_eq _ hclosed).resolve_right fun hnew => hthere hnew.2.1
  refine ⟨?_, fun hnone => hthere (FileTree.kind?_eq_none.mpr hnone), hkind, fun hlog => ?_⟩
  · -- On the way there are directories, and these stay.
    have hdirs := FileTree.directories_of_locate hlocate (Path.fileName_no_slash _)
    rw [← hlocate]
    refine FileTree.locate_congr h.files.start_eq fun loc hloc => ?_
    rcases (Path.trail_join (Path.fileName_no_slash _) _ _).2 loc hloc with hway | rfl
    · rw [h.files.directory loc (hdirs loc hway), hdirs loc hway]
    · exact hkind
  · cases hfound : base.files.kind? (job.place base.files.start key) with
    | none => exact absurd hfound hthere
    | some kind =>
      cases kind with
      | directory =>
        rw [FileTree.kind?_eq_directory.mp hfound,
          FileTree.kind?_eq_directory.mp (hkind.trans hfound)]
      | file => exact h.files.get?_eq _ hclosed hlog hfound

end Staying

/-! ## 3. The whole pull -/

def DisjointCopies (cache : Cache) (start : Location) : Prop :=
  cache.jobs.Pairwise fun job other => ∀ key ∈ job.backend.keys, ∀ found ∈ other.backend.keys,
    job.place start key ≠ other.place start found

instance (cache : Cache) (start : Location) : Decidable (cache.DisjointCopies start) :=
  inferInstanceAs (Decidable (List.Pairwise _ _))

section Pulling

variable {attempt : Attempt} {cache : Cache} {world : World} {job : Fetch.Job}
  {before position first last : Nat} {failure : Failure}

/-- The world in which the first fetches of a pull with one worker have ended. -/
def reachedAfter (attempt : Attempt) (cache : Cache) (world : World) (count : Nat) : World :=
  worldAfter (fetching attempt.cloud attempt.factory attempt.cancelAt) (cache.jobs.take count)
    (announced cache world)

/-- The first fetch of a pull with one worker that fails is that of the backend at a position. -/
def FirstFailsAt (attempt : Attempt) (cache : Cache) (world : World) (position : Nat)
    (failure : Failure) : Prop :=
  FirstFails (fetching attempt.cloud attempt.factory attempt.cancelAt) cache.jobs
    (announced cache world) position failure

theorem start_reachedAfter (hvalid : cache.config.check = .ok ()) (attempt : Attempt)
    (world : World) (count : Nat) :
    (reachedAfter attempt cache world count).files.start = world.files.start :=
  (sparing_worldAfter _ _ _ _ _).files.start_eq.trans (announced_alike hvalid world).files.start_eq

theorem rooted_reachedAfter (hvalid : cache.config.check = .ok ()) (hroot : world.files.Rooted)
    (attempt : Attempt) (count : Nat) : (reachedAfter attempt cache world count).files.Rooted :=
  (sparing_worldAfter _ _ _ _ _).rooted ((announced_alike hvalid world).kept.rooted hroot)

-- From one of these worlds to a later one the fetches in between have run.
theorem sparing_reachedAfter (attempt : Attempt) (cache : Cache) (world : World)
    (hle : first ≤ last) :
    Sparing ((cache.jobs.take last).drop first) (reachedAfter attempt cache world first)
      (reachedAfter attempt cache world last) := by
  have hsplit : cache.jobs.take first ++ (cache.jobs.take last).drop first =
      cache.jobs.take last := by
    have htake : (cache.jobs.take last).take first = cache.jobs.take first := by
      rw [List.take_take, Nat.min_eq_left hle]
    rw [← htake, List.take_append_drop]
  have hrest := sparing_worldAfter attempt.cloud attempt.factory attempt.cancelAt
    ((cache.jobs.take last).drop first) (reachedAfter attempt cache world first)
  rw [reachedAfter, ← worldAfter_append, hsplit] at hrest
  exact hrest

-- A fetch before the first that fails reaches its copies.
theorem FirstFailsAt.settles (h : FirstFailsAt attempt cache world position failure)
    (hvalid : cache.config.check = .ok ()) (hroot : world.files.Rooted) (hlt : before < position)
    (hjob : cache.jobs[before]? = some job) :
    Fetch.Settles attempt.cloud job (reachedAfter attempt cache world before)
      (reachedAfter attempt cache world (before + 1)) := by
  have hok := h.before before job hlt hjob
  have hnext : reachedAfter attempt cache world (before + 1) = _ := worldAfter_take_succ _ _ hjob
  rw [hnext, reachedAfter]
  rcases hrun : (fetching attempt.cloud attempt.factory attempt.cancelAt job).run
    (reachedAfter attempt cache world before) with ⟨problem | outcome, ended⟩
  · rw [reachedAfter] at hrun
    rw [hrun] at hok
    simp [Except.toBool] at hok
  · have hsettles := fetching_ok (rooted_reachedAfter hvalid hroot attempt before) hrun
    rw [reachedAfter] at hrun hsettles
    rw [hrun]
    exact hsettles

-- A copy of a backend before the first that fails stays, if no other backend has a copy there.
theorem FirstFailsAt.stays (h : FirstFailsAt attempt cache world position failure)
    (hvalid : cache.config.check = .ok ()) (hroot : world.files.Rooted)
    (hdisjoint : cache.DisjointCopies world.files.start) (hlt : before < position)
    (hjob : cache.jobs[before]? = some job) {key : Text} (hkey : key ∈ job.backend.keys) :
    Stays job key (reachedAfter attempt cache world (before + 1))
      (reachedAfter attempt cache world (position + 1)) := by
  have hsettles := h.settles hvalid hroot hlt hjob
  have hlocate := (hsettles.reached key hkey).2
  rw [← hsettles.kept.start_eq] at hlocate
  have hrest := sparing_reachedAfter attempt cache world (Nat.succ_le_succ hlt.le)
  refine hrest.stays (rooted_reachedAfter hvalid hroot _ _) hlocate fun other hother found hfound => ?_
  -- The fetches in between are those of other backends.
  obtain ⟨behind, hbehind⟩ := List.mem_iff_getElem?.mp hother
  rw [List.getElem?_drop, List.getElem?_take] at hbehind
  split at hbehind
  · rw [start_reachedAfter hvalid]
    obtain ⟨hlt', rfl⟩ := List.getElem?_eq_some_iff.mp hbehind
    obtain ⟨hlt'', rfl⟩ := List.getElem?_eq_some_iff.mp hjob
    exact (List.pairwise_iff_getElem.mp hdisjoint before _ hlt'' hlt' (by omega) key hkey found
      hfound).symm
  · simp at hbehind

/-- **A pull with one worker stops at the first backend whose fetch fails.** It ends with the failure
of that fetch, in the very world in which that fetch ended, so nothing was asked and no file was
touched for a backend behind; the owners that it knows are those of the backends before; and if no two
backends have a copy at one location, every copy of a backend before, whether downloaded or passed
over, stands as it stood when the fetch of its own backend ended. -/
theorem run_stops (hvalid : cache.config.check = .ok ()) (hroot : world.files.Rooted)
    (hone : cache.workers = 1) (hdisjoint : cache.DisjointCopies world.files.start)
    (hfails : FirstFailsAt attempt cache world position failure) :
    attempt.run cache world = (.error failure,
        { cache with
          config := cache.config.withOptions
          filenames := (cache.upTo position).configured },
        reachedAfter attempt cache world (position + 1)) ∧
      ∀ before job, before < position → cache.jobs[before]? = some job →
        ∀ key ∈ job.backend.keys, Stays job key (reachedAfter attempt cache world (before + 1))
          (reachedAfter attempt cache world (position + 1)) := by
  refine ⟨?_, fun before job hlt hjob key hkey =>
    hfails.stays hvalid hroot hdisjoint hlt hjob hkey⟩
  obtain ⟨outcomes, hfetches⟩ := pullInOrder_of_firstFails
    (fetching_naming attempt.cloud attempt.factory attempt.cancelAt) hfails .none
  rw [Attempt.run, pull_eq_pullValid hvalid, pullValid_run _ _ hvalid, pullAll, if_pos (.inl hone),
    hfetches, configured_upTo]
  rfl

end Pulling

/-- The second of three backends fails; the copy of the first one stays, and nothing is asked for the
third one. -/
theorem stopped_at_second_backend :
    let cache := Cache.make lackingConfig true 1
    let attempt : Attempt := ⟨lackingCloud, .standard, none, .inOrder 3⟩
    let failure : Failure := .error (Fetch.transferError (cache.job ⟨"c", ["x"], [], [], [], []⟩) "x"
      (.refused "404" "HeadObject" "Not Found"))
    let run := attempt.run cache sampleWorld
    let ended := reachedAfter attempt cache sampleWorld 1
    FirstFailsAt attempt cache sampleWorld 1 failure ∧ run.1 = .error failure ∧
      run.2.1.filenames.entries = ([("d/b/a", "arn:aws:s3:::b/a")] : List (Text × Text)) ∧
      run.2.2.calls.length = 6 ∧ ended.files.get? ["w", "d", "b", "a"] = some (.file [0x61]) ∧
      run.2.2.files.get? ["w", "d", "b", "a"] = some (.file [0x61]) ∧
      run.2.2.files.get? ["w", "d", "b", "e"] = none := by
  intro cache attempt failure run ended
  have hfails : FirstFailsAt attempt cache sampleWorld 1 failure := by
    refine ⟨⟨_, rfl, by decide +kernel⟩, fun other job hlt hjob => ?_⟩
    obtain rfl : other = 0 := by omega
    obtain rfl := Option.some.inj hjob
    decide +kernel
  obtain ⟨hrun, hstays⟩ := run_stops rfl rooted_sampleWorld rfl (by decide +kernel) hfails
  -- The copy of the first backend, whose fetch ended before the one that failed.
  have hplace : (cache.job ⟨"b", ["a"], [], [], [], []⟩).place ended.files.start "a" =
      ["w", "d", "b", "a"] := by decide +kernel
  have hstay : Stays (cache.job ⟨"b", ["a"], [], [], [], []⟩) "a" ended
      (reachedAfter attempt cache sampleWorld 2) := hstays 0 _ Nat.one_pos rfl "a" (by decide)
  have hcopy := hstay.get?_eq (by decide +kernel)
  rw [hplace] at hcopy
  have hended : ended.files.get? ["w", "d", "b", "a"] = some (.file [0x61]) := by decide +kernel
  have hstopped : run = _ := hrun
  rw [hstopped]
  exact ⟨hfails, rfl, by decide +kernel, by decide +kernel, hended, hcopy.trans hended,
    by decide +kernel⟩

end StateOwnership.Cache
