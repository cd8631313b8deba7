import StateOwnership.Proofs.Cache.Sparing
import StateOwnership.Proofs.Fetch.Wholeness

/-!
# Recovering from pulls that failed

A pull that does not overwrite passes over every copy that is there, also over one that a pull before
it left behind when it failed. **If the objects keep their contents and different objects have
different copies, a pull that succeeds after any number of pulls that ended in any way comes to what
one pull alone comes to.**
-/

namespace StateOwnership.Cache

/-! ## 1. Pulls one after the other -/

/-- One pull: what the services answer, how clients are made, when the pull is cancelled, and in
which order its fetches end. -/
structure Attempt where
  cloud : Cloud
  factory : Fetch.Factory
  cancelAt : Option Nat
  schedule : Schedule

def Attempt.run (attempt : Attempt) (cache : Cache) (world : World) :
    Except Failure (List Fetch.Outcome) × Cache × World :=
  (pull attempt.cloud attempt.factory attempt.cancelAt attempt.schedule).runOn cache world

/-- The cache and the world after pulls one after the other, however each of them ends. -/
def attempted : List Attempt → Cache → World → Cache × World
  | [], cache, world => (cache, world)
  | attempt :: rest, cache, world => attempted rest (attempt.run cache world).2.1
      (attempt.run cache world).2.2

/-- Different objects that a cache lists have different copies. -/
def DistinctCopies (cache : Cache) (start : Location) : Prop :=
  ∀ x ∈ cache.listed, ∀ y ∈ cache.listed, x.place start = y.place start →
    x.job.backend.bucket = y.job.backend.bucket ∧ x.key = y.key

instance (cache : Cache) (start : Location) : Decidable (cache.DistinctCopies start) :=
  inferInstanceAs (Decidable (∀ x ∈ cache.listed, ∀ y ∈ cache.listed, _))

def Listed.content (content : (bucket key : Text) → Bytes) (x : Listed) : Bytes :=
  content x.job.backend.bucket x.key

/-- What is at a location after a pull that does not overwrite and that brings the given contents:
what was there before, or a directory on the way of a copy, or the copy that belongs there. -/
def brought (content : (bucket key : Text) → Bytes) (cache : Cache) (start loc : Location)
    (before : Option FileTree.Entry) : Option FileTree.Entry :=
  before.or (if ∃ job ∈ cache.jobs, job.LeadsThrough start loc then some .directory
    else (cache.listed.find? (·.place start = loc)).map fun x => .file (x.content content))

section Attempts

variable {content : (bucket key : Text) → Bytes} {cache after : Cache} {attempt : Attempt}
  {jobs : List Fetch.Job} {job : Fetch.Job} {base world : World} {final : FileTree}
  {start loc : Location} {before entry : Option FileTree.Entry}

-- A pull changes the options of a cache to those in force, and the owners of its paths.
theorem Attempt.run_cache (hvalid : cache.config.check = .ok ()) (attempt : Attempt)
    (world : World) : ∃ filenames, (attempt.run cache world).2.1 =
      { cache with config := cache.config.withOptions, filenames := filenames } := by
  rw [Attempt.run, pull_eq_pullValid hvalid, pullValid_run _ _ hvalid]
  rcases (pullAll (fetching attempt.cloud attempt.factory attempt.cancelAt) cache.workers
    attempt.schedule cache.jobs).run (announced cache world) with ⟨progress, pulled⟩
  refine ⟨progress.filenames, ?_⟩
  cases hfailure : progress.failure <;> simp only [concluded, hfailure]

theorem attempted_cache (hvalid : cache.config.check = .ok ()) (attempts : List Attempt)
    (world : World) : (attempted attempts cache world).1 = cache ∨
      ∃ filenames, (attempted attempts cache world).1 =
        { cache with config := cache.config.withOptions, filenames := filenames } := by
  induction attempts generalizing cache world with
  | nil => exact .inl rfl
  | cons attempt rest ih =>
    right
    obtain ⟨filenames, hfirst⟩ := attempt.run_cache hvalid world
    rw [attempted, hfirst]
    have hvalid' : ({ cache with
        config := cache.config.withOptions
        filenames := filenames } : Cache).config.check = .ok () := hvalid
    rcases ih hvalid' (attempt.run cache world).2.2 with hsame | ⟨filenames, hrest⟩
    · exact ⟨_, hsame⟩
    · exact ⟨filenames, hrest⟩

theorem attempted_concat (attempts : List Attempt) (last : Attempt) (cache : Cache)
    (world : World) : attempted (attempts ++ [last]) cache world =
      (last.run (attempted attempts cache world).1 (attempted attempts cache world).2).2 := by
  induction attempts generalizing cache world with
  | nil => rfl
  | cons attempt rest ih => exact ih _ _

/-! ## 2. What attempts bring -/

/-- A world that pulls have come to which began in another one and did not overwrite. If the copies
of the given fetches are reached in a later tree, all that was brought is whole. -/
structure Recovering (content : (bucket key : Text) → Bytes) (jobs : List Fetch.Job) (base : World)
    (final : FileTree) (world : World) : Prop where
  log_eq : world.log = base.log
  kept : FileTree.Kept base.files world.files
  supplied : (∀ job ∈ jobs, job.Reached final) → FileTree.Kept world.files final →
    ∀ loc ∉ base.log.places, Fetch.Supplied content jobs base.files.start loc
      (base.files.get? loc) (world.files.get? loc)

theorem Recovering.refl (content : (bucket key : Text) → Bytes) (jobs : List Fetch.Job)
    (base : World) (final : FileTree) : Recovering content jobs base final base :=
  ⟨rfl, .refl _, fun _ _ _ _ => .same _⟩

theorem Recovering.record (h : Recovering content jobs base final world) (r : Log.Record) :
    Recovering content jobs base final (world.record r) := by
  have halike := World.Alike.record world r
  refine ⟨halike.log_eq.trans h.log_eq, h.kept.trans halike.kept,
    fun hreached hkept loc hloc => ?_⟩
  rw [halike.files.get?_eq loc (h.log_eq ▸ hloc)]
  exact h.supplied hreached (halike.kept.trans hkept) loc hloc

theorem Recovering.fetch (h : Recovering content jobs base final world)
    (hroot : base.files.Rooted) (hjob : job ∈ jobs) (hkeep : job.options.overwrite = false)
    (hserves : Fetch.Serves content attempt.cloud) :
    Recovering content jobs base final
      ((fetching attempt.cloud attempt.factory attempt.cancelAt job).run world).2 := by
  have hthere := Fetch.fetch_kept attempt.cloud attempt.factory attempt.cancelAt hkeep world
  have hlog := (Fetch.fetch_sparing attempt.cloud attempt.factory attempt.cancelAt job world).log_eq
  refine ⟨hlog.trans h.log_eq, h.kept.trans hthere, fun hreached hkept loc hloc => ?_⟩
  have hbrought := Fetch.fetch_supplied hserves hkeep (h.kept.rooted hroot) hjob
    (hreached job hjob) hkept (h.log_eq ▸ hloc)
  rw [h.kept.start_eq] at hbrought
  exact (h.supplied hreached (hthere.trans hkept) loc hloc).trans hbrought

-- However a pull ends, what it has brought is whole.
theorem Recovering.run (h : Recovering content cache.jobs base final world)
    (hroot : base.files.Rooted) (hkeep : cache.config.effectiveOptions.overwrite = false)
    (hserves : Fetch.Serves content attempt.cloud) :
    Recovering content cache.jobs base final (attempt.run cache world).2.2 := by
  refine pull_invariant (fun job hjob world hworld => ?_) (fun world r hworld => hworld.record r)
    attempt.schedule h
  exact hworld.fetch hroot hjob (by rw [options_of_mem_jobs hjob, hkeep]) hserves

theorem Recovering.attempted {attempts : List Attempt}
    (h : Recovering content cache.jobs base final world)
    (hvalid : cache.config.check = .ok ()) (hroot : base.files.Rooted)
    (hkeep : cache.config.effectiveOptions.overwrite = false)
    (hserves : ∀ attempt ∈ attempts, Fetch.Serves content attempt.cloud) :
    Recovering content cache.jobs base final (attempted attempts cache world).2 := by
  induction attempts generalizing cache world with
  | nil => exact h
  | cons attempt rest ih =>
    obtain ⟨filenames, hcache⟩ := attempt.run_cache hvalid world
    have hfirst := h.run hroot hkeep (hserves attempt List.mem_cons_self)
    have hjobs := jobs_withOptions cache filenames
    rw [← hcache] at hjobs
    rw [Cache.attempted]
    rw [← hjobs] at hfirst ⊢
    refine ih hfirst ?_ ?_ fun other hother => hserves other (List.mem_cons_of_mem _ hother)
    · rw [hcache]
      exact hvalid
    · rw [hcache]
      exact hkeep

/-! ## 3. After a pull that succeeds -/

theorem destination_ne_nil (hvalid : cache.config.check = .ok ()) :
    cache.config.destination ≠ [] := by
  intro hnil
  rw [Config.check, if_pos hnil] at hvalid
  simp at hvalid

-- A pull that succeeds has its configured owners, and every copy is reached.
theorem run_ok {outcomes : List Fetch.Outcome} {pulled : World}
    (hvalid : cache.config.check = .ok ()) (hroot : world.files.Rooted)
    (horder : cache.workers ≠ 1 →
      attempt.schedule.order.Perm (List.range cache.config.backends.length))
    (hrun : attempt.run cache world = (.ok outcomes, after, pulled)) :
    after = { cache with config := cache.config.withOptions, filenames := cache.configured } ∧
      ∀ job ∈ cache.jobs, job.Reached pulled.files := by
  refine ⟨pull_cache hvalid horder hrun, fun job hjob key hkey => ?_⟩
  obtain ⟨begun, settled, hbegun, hsettles, hafter⟩ := pull_ok hvalid hroot hrun
  obtain ⟨hcheck, hlocate⟩ :=
    hsettles.reached job ((ended_jobs_perm horder).mem_iff.mpr hjob) key hkey
  have hdestination : job.destination ≠ [] := by
    obtain ⟨backend, -, rfl⟩ := List.mem_map.mp hjob
    exact destination_ne_nil hvalid
  refine ⟨Fetch.directory_ne_nil hdestination key, hcheck, ?_⟩
  rw [hafter.files.start_eq, hsettles.kept.start_eq]
  exact hafter.kept.locate hlocate

-- What was brought to a location is known once all copies are reached.
theorem brought_of_supplied (hroot : final.Rooted)
    (hreached : ∀ job ∈ cache.jobs, job.Reached final) (hdistinct : cache.DistinctCopies final.start)
    (h : Fetch.Supplied content cache.jobs final.start loc before (final.get? loc)) :
    final.get? loc = cache.brought content final.start loc before := by
  rw [brought]
  by_cases hthrough : ∃ job ∈ cache.jobs, job.LeadsThrough final.start loc
  · obtain ⟨job, hjob, hleads⟩ := id hthrough
    rw [(hreached job hjob).get?_way hleads] at h ⊢
    rw [if_pos hthrough]
    cases h <;> rfl
  · rw [if_neg hthrough]
    cases hfind : cache.listed.find? (·.place final.start = loc) with
    | none =>
      -- No copy belongs there, so nothing was brought.
      rw [List.find?_eq_none] at hfind
      generalize final.get? loc = entry at h
      cases h with
      | same => rw [Option.map_none, Option.or_none]
      | directory hjob hleads => exact absurd ⟨_, hjob, hleads⟩ hthrough
      | @copy job key hjob hkey hplace =>
        exact absurd (decide_eq_true hplace)
          (hfind ⟨job, key⟩ (Listed.mem_ofJobs.mpr ⟨hjob, hkey⟩))
    | some x =>
      have hx := List.mem_of_find?_eq_some hfind
      have hplace : x.place final.start = loc := by simpa using List.find?_some hfind
      obtain ⟨hjob, hkey⟩ := Listed.mem_ofJobs.mp hx
      have hthere : final.get? loc ≠ none := by
        rw [← hplace]
        exact (hreached x.job hjob).get?_place hroot hkey
      generalize final.get? loc = entry at h hthere
      cases h with
      | same =>
        obtain ⟨found, rfl⟩ := Option.ne_none_iff_exists'.mp hthere
        rfl
      | directory hjob hleads => exact absurd ⟨_, hjob, hleads⟩ hthrough
      | @copy job key hjob' hkey' hplace' =>
        have hy : (⟨job, key⟩ : Listed) ∈ cache.listed := Listed.mem_ofJobs.mpr ⟨hjob', hkey'⟩
        obtain ⟨hbucket, hsame⟩ := hdistinct x hx ⟨job, key⟩ hy (hplace.trans hplace'.symm)
        rw [Option.map_some, Option.none_or, Listed.content, hbucket, hsame]

/-- **After pulls that ended in any way, one that succeeds has brought every copy whole**, and left
what was there. -/
theorem attempted_ok {attempts : List Attempt} {last : Attempt}
    (hvalid : cache.config.check = .ok ())
    (hkeep : cache.config.effectiveOptions.overwrite = false) (hroot : world.files.Rooted)
    (hdistinct : cache.DistinctCopies world.files.start)
    (hserves : ∀ attempt ∈ attempts ++ [last], Fetch.Serves content attempt.cloud)
    (horder : cache.workers ≠ 1 →
      last.schedule.order.Perm (List.range cache.config.backends.length))
    (hlast : (last.run (attempted attempts cache world).1
      (attempted attempts cache world).2).1.toBool = true) :
    let after := attempted (attempts ++ [last]) cache world
    after.1 = { cache with config := cache.config.withOptions, filenames := cache.configured } ∧
      after.2.files.start = world.files.start ∧
      ∀ loc ∉ world.log.places, after.2.files.get? loc =
        cache.brought content world.files.start loc (world.files.get? loc) := by
  rcases hrun : last.run (attempted attempts cache world).1 (attempted attempts cache world).2 with
    ⟨failure | outcomes, after, pulled⟩
  · rw [hrun] at hlast
    simp [Except.toBool] at hlast
  have hbase := Recovering.refl content cache.jobs world pulled.files
  have hbefore := hbase.attempted hvalid hroot hkeep
    fun attempt hattempt => hserves attempt (List.mem_append_left _ hattempt)
  have hall := hbase.attempted hvalid hroot hkeep hserves
  rw [attempted_concat, hrun] at hall ⊢
  obtain ⟨hcache, hreached⟩ :
      after = { cache with config := cache.config.withOptions, filenames := cache.configured } ∧
        ∀ job ∈ cache.jobs, job.Reached pulled.files := by
    have hthen := hbefore.kept.rooted hroot
    rcases attempted_cache hvalid attempts world with hsame | ⟨filenames, hsame⟩
    · rw [hsame] at hrun
      exact run_ok hvalid hthen horder hrun
    · -- The options in force are those in force before.
      rw [hsame] at hrun
      obtain ⟨hcache, hreached⟩ := run_ok (by exact hvalid) hthen (by exact horder) hrun
      exact ⟨hcache, hreached⟩
  refine ⟨hcache, hall.kept.start_eq, fun loc hloc => ?_⟩
  have hsupplied := hall.supplied hreached (.refl _) loc hloc
  rw [← hall.kept.start_eq] at hdistinct hsupplied ⊢
  exact brought_of_supplied (hall.kept.rooted hroot) hreached hdistinct hsupplied

/-- **After pulls that ended in any way, one that succeeds comes to what a single pull comes to**, if
copies are not overwritten, different objects have different copies, and every object that is
transferred without a fault is transferred with the same content. -/
theorem recovered {attempts : List Attempt} {last single : Attempt}
    (hvalid : cache.config.check = .ok ())
    (hkeep : cache.config.effectiveOptions.overwrite = false) (hroot : world.files.Rooted)
    (hdistinct : cache.DistinctCopies world.files.start)
    (hserves : ∀ attempt ∈ attempts ++ [last], Fetch.Serves content attempt.cloud)
    (hserves' : Fetch.Serves content single.cloud)
    (horder : cache.workers ≠ 1 → ∀ attempt ∈ [last, single],
      attempt.schedule.order.Perm (List.range cache.config.backends.length))
    (hlast : (last.run (attempted attempts cache world).1
      (attempted attempts cache world).2).1.toBool = true)
    (hsingle : (single.run cache world).1.toBool = true) :
    let after := attempted (attempts ++ [last]) cache world
    let alone := attempted [single] cache world
    after.1 = alone.1 ∧ after.2.files.start = alone.2.files.start ∧
      ∀ loc ∉ world.log.places, after.2.files.get? loc = alone.2.files.get? loc := by
  intro after alone
  obtain ⟨hcache, hstart, hget⟩ := attempted_ok hvalid hkeep hroot hdistinct hserves
    (fun hmany => horder hmany last (by simp)) hlast
  have halone : ∀ attempt ∈ [] ++ [single], Fetch.Serves content attempt.cloud := by
    simpa using hserves'
  obtain ⟨hcache', hstart', hget'⟩ := attempted_ok hvalid hkeep hroot hdistinct halone
    (fun hmany => horder hmany single (by simp)) hsingle
  refine ⟨hcache.trans hcache'.symm, hstart.trans hstart'.symm, fun loc hloc => ?_⟩
  exact (hget loc hloc).trans (hget' loc hloc).symm

end Attempts

/-- The contents that spell their keys. -/
def spelledContent (_ key : Text) : Bytes := key.map fun c => UInt8.ofNat c.val

/-- A cloud in which every object spells its key, but the transfer of `b` goes as given. -/
def cloudWith (delivery : Delivery) : Cloud :=
  { spellingCloud with
    transfer := fun bucket key => if key = "b" then delivery else spellingCloud.transfer bucket key }

theorem serves_cloudWith {delivery : Delivery} (hbody : delivery.fault = none → delivery.body = [0x62])
    (hfault : delivery.fault ≠ some .interrupted) :
    Fetch.Serves spelledContent (cloudWith delivery) := by
  refine ⟨fun bucket key hnone => ?_, fun bucket key => ?_⟩
  all_goals
    simp only [cloudWith] at *
    by_cases hkey : key = "b"
  · rw [if_pos hkey] at hnone ⊢
    rw [hbody hnone, hkey]
    rfl
  · rw [if_neg hkey]
    rfl
  · rw [if_pos hkey]
    exact hfault
  · rw [if_neg hkey]
    simp [spellingCloud]

/-- Three pulls that fail: no client is made, the transfer of `b` breaks off, and the pull is cancelled
before the transfer of `b` is done. -/
def failingAttempts : List Attempt :=
  [⟨spellingCloud, fun _ => .error Client.regionError, none, .inOrder 1⟩,
    ⟨cloudWith ⟨[0x21], some (.refused "500" "GetObject" "broken"), false, 0⟩, .standard, none,
      .inOrder 1⟩,
    ⟨cloudWith ⟨[0x62], none, false, 5⟩, .standard, some 2, .inOrder 1⟩]

/-- The copy of `a` stays behind when the transfer of `b` fails, and the pull that succeeds comes to
what a single one comes to. -/
theorem recovered_after_failures :
    let cache := sampleCache ["a", "b"] false
    let last : Attempt := ⟨spellingCloud, .standard, none, .inOrder 1⟩
    let failed := attempted failingAttempts cache sampleWorld
    let after := attempted (failingAttempts ++ [last]) cache sampleWorld
    let alone := attempted [last] cache sampleWorld
    failed.1.filenames.entries = [] ∧
      failed.2.files.get? ["w", "d", "b", "a"] = some (.file [0x61]) ∧
      failed.2.files.get? ["w", "d", "b", "b"] = none ∧ after.1 = alone.1 ∧
      ∀ loc, after.2.files.get? loc = alone.2.files.get? loc := by
  intro cache last failed after alone
  have hspelling : Fetch.Serves spelledContent last.cloud :=
    ⟨fun _ _ _ => rfl, fun _ _ => by simp [last, spellingCloud]⟩
  have hserves : ∀ attempt ∈ failingAttempts ++ [last],
      Fetch.Serves spelledContent attempt.cloud := by
    simp only [failingAttempts, List.cons_append, List.nil_append, List.forall_mem_cons,
      List.not_mem_nil, false_implies, implies_true, and_true]
    exact ⟨hspelling, serves_cloudWith (by simp) (by simp), serves_cloudWith (by simp) (by simp),
      hspelling⟩
  have hvalid : cache.config.check = .ok () := rfl
  have hlog : sampleWorld.log.places = [] := rfl
  obtain ⟨hcache, -, hget⟩ := recovered hvalid rfl rooted_sampleWorld (by decide +kernel) hserves
    hspelling (fun hmany => absurd rfl hmany) (by decide +kernel) (by decide +kernel)
  exact ⟨by decide +kernel, by decide +kernel, by decide +kernel, hcache,
    fun loc => hget loc (by simp [hlog])⟩

end StateOwnership.Cache
