import StateOwnership.Proofs.Cache.Pulling

/-!
# Schedules

Several fetches at a time end in any order, and the first error about fetching may come before others
have to start. **Errors about fetching are sorted by position, so the schedule does not show: the pull
ends as if the fetches had ended in order. Any other failure escapes from the watch as soon as it is
noticed, so it is raised or not by the schedule**, unless it is the failure of the first fetch that
fails.
-/

namespace StateOwnership

def Failure.isFetch : Failure → Bool
  | .error e => e.isFetch
  | _ => false

namespace Cache

/-! ## 1. Results in the order of the configuration -/

/-- Adds the outcomes of results in order, up to the first failure. -/
def Progress.gather : Progress → List Fetched → Progress
  | progress, [] => progress
  | progress, .ok outcome :: rest => (progress.add outcome).gather rest
  | progress, .error failure :: _ => { progress with failure := some failure }

def firstFailure? : List Fetched → Option Failure
  | [] => none
  | .ok _ :: rest => firstFailure? rest
  | .error failure :: _ => some failure

theorem failure_gather {progress : Progress} (h : progress.failure = none)
    (results : List Fetched) : (progress.gather results).failure = firstFailure? results := by
  induction results generalizing progress with
  | nil => exact h
  | cons result rest ih =>
    cases result with
    | ok outcome => exact ih h
    | error failure => rfl

-- In front of the first failure there are outcomes only.
theorem position_of_firstFailure {results : List Fetched} {failure : Failure}
    (h : firstFailure? results = some failure) :
    ∃ position : Nat, results[position]? = some (.error failure) ∧
      ∀ other : Nat, other < position → ∃ outcome, results[other]? = some (.ok outcome) := by
  induction results with
  | nil => simp [firstFailure?] at h
  | cons result rest ih =>
    cases result with
    | ok outcome =>
      obtain ⟨position, hposition, hbefore⟩ := ih h
      refine ⟨position + 1, hposition, fun other hlt => ?_⟩
      cases other with
      | zero => exact ⟨outcome, rfl⟩
      | succ other => exact hbefore other (by omega)
    | error found =>
      rw [firstFailure?, Option.some.injEq] at h
      exact ⟨0, by simp [h], by simp⟩

/-- Fetches that end as they are expected to in every world that is ready for them, and for which a
world stays ready while others run and records are written. -/
structure Steady (run : Run) (jobs : List Fetch.Job) (Ends : Nat → Fetched → Prop)
    (Ready : Nat → World → Prop) : Prop where
  ends : ∀ position job world, jobs[position]? = some job → Ready position world →
    Ends position ((run job).run world).1
  ready_run : ∀ position other job world, position ≠ other → jobs[other]? = some job →
    Ready position world → Ready position ((run job).run world).2
  ready_record : ∀ position world record, Ready position world →
    Ready position (world.record record)

/-- Results of all fetches, each as expected. -/
structure Fits (jobs : List Fetch.Job) (Ends : Nat → Fetched → Prop) (results : List Fetched) :
    Prop where
  length_eq : results.length = jobs.length
  ends : ∀ position result, results[position]? = some result → Ends position result

theorem Fits.set {jobs : List Fetch.Job} {Ends : Nat → Fetched → Prop} {results : List Fetched}
    (h : Fits jobs Ends results) {position : Nat} {result : Fetched}
    (hends : Ends position result) : Fits jobs Ends (results.set position result) := by
  refine ⟨by rw [List.length_set, h.length_eq], fun other found hfound => ?_⟩
  rw [List.getElem?_set] at hfound
  split at hfound
  · rename_i heq
    split at hfound
    · rw [Option.some.injEq] at hfound
      exact heq ▸ hfound ▸ hends
    · simp at hfound
  · exact h.ends other found hfound

section Steadiness

variable {run : Run} {jobs : List Fetch.Job} {Ends : Nat → Fetched → Prop}
  {results : List Fetched} {Ready : Nat → World → Prop} {world : World}

-- What is left of fetches that run one after the other comes to results that are expected. By
-- induction on what is left: a failure stops the run, and any results are taken for what is behind.
theorem pullInOrder_rest (hsteady : Steady run jobs Ends Ready) (hfits : Fits jobs Ends results)
    (before rest : List Fetch.Job) (progress : Progress) (hsplit : jobs = before ++ rest)
    (hready : ∀ position, before.length ≤ position → position < jobs.length →
      Ready position world) :
    ∃ found : List Fetched, found.length = rest.length ∧
      (∀ position result, found[position]? = some result →
        Ends (before.length + position) result) ∧
      ((pullInOrder run progress rest).run world).1 = progress.gather found := by
  induction rest generalizing before progress world with
  | nil => exact ⟨[], rfl, by simp, rfl⟩
  | cons job rest ih =>
    have hlt : before.length < jobs.length := by simp [hsplit]
    have hjob : jobs[before.length]? = some job := by simp [hsplit]
    have hends := hsteady.ends _ _ _ hjob (hready _ le_rfl hlt)
    rw [pullInOrder_cons]
    rcases hrun : (run job).run world with ⟨failure | outcome, between⟩
    · rw [hrun] at hends
      refine ⟨.error failure :: results.drop (before.length + 1), ?_, fun position result h => ?_,
        rfl⟩
      · rw [List.length_cons, List.length_drop, hfits.length_eq, hsplit, List.length_append,
          List.length_cons]
        omega
      · cases position with
        | zero =>
          obtain rfl : .error failure = result := by simpa using h
          exact hends
        | succ position =>
          rw [List.getElem?_cons_succ, List.getElem?_drop] at h
          rw [Nat.add_left_comm, Nat.add_comm position]
          exact hfits.ends _ _ h
    · rw [hrun] at hends
      have hbetween : ∀ position, (before ++ [job]).length ≤ position → position < jobs.length →
          Ready position between := by
        intro position hle hlt
        rw [List.length_append, List.length_singleton] at hle
        have hkept := hsteady.ready_run position before.length job world (by omega) hjob
          (hready position (by omega) hlt)
        rwa [hrun] at hkept
      obtain ⟨found, hlength, hfound, hresult⟩ :=
        ih (before ++ [job]) (progress.add outcome) (by simp [hsplit]) hbetween
      refine ⟨.ok outcome :: found, by simp [hlength], fun position result h => ?_, hresult⟩
      cases position with
      | zero =>
        obtain rfl : .ok outcome = result := by simpa using h
        exact hends
      | succ position =>
        have hnext := hfound position result h
        rwa [List.length_append, List.length_singleton, Nat.add_assoc, Nat.add_comm 1] at hnext

theorem pullInOrder_steady (hsteady : Steady run jobs Ends Ready) (hfits : Fits jobs Ends results)
    (hready : ∀ position, position < jobs.length → Ready position world) :
    ∃ found, Fits jobs Ends found ∧
      ((pullInOrder run .none jobs).run world).1 = Progress.none.gather found := by
  obtain ⟨found, hlength, hfound, hresult⟩ := pullInOrder_rest hsteady hfits [] jobs .none
    jobs.nil_append.symm fun position _ hlt => hready position hlt
  exact ⟨found, ⟨hlength, fun position result h => by simpa using hfound position result h⟩,
    hresult⟩

/-! ## 2. What is noticed -/

/-- Takes notice of the fixed result at a position, unless its fetch was cancelled. -/
def Watch.see (results : List Fetched) (withheld : List Nat) (watch : Watch) (position : Nat) :
    Watch :=
  match results[position]? with
  | .none => watch
  | some result =>
    if position ∈ watch.cancelled then watch else watch.notice withheld position result

theorem foldl_see_congr {found : List Fetched} {withheld order : List Nat}
    (h : ∀ position ∈ order, found[position]? = results[position]?) (watch : Watch) :
    order.foldl (Watch.see found withheld) watch =
      order.foldl (Watch.see results withheld) watch := by
  apply List.foldl_ext
  intro watch position hposition
  rw [Watch.see, Watch.see, h position hposition]

-- Watching fetches comes to noticing results that are expected. Those that are cancelled do not
-- run, and any results are taken for them.
theorem watchAll_steady (hsteady : Steady run jobs Ends Ready) (hfits : Fits jobs Ends results)
    (withheld : List Nat) (watch : Watch) {order : List Nat} (hnodup : order.Nodup)
    (hready : ∀ position ∈ order, Ready position world) :
    ∃ found, Fits jobs Ends found ∧ ((watchAll run jobs withheld watch order).run world).1 =
      order.foldl (Watch.see found withheld) watch := by
  induction order generalizing watch world with
  | nil => exact ⟨results, hfits, rfl⟩
  | cons position rest ih =>
    obtain ⟨hnew, hnodup⟩ := List.nodup_cons.mp hnodup
    have hrest : ∀ other ∈ rest, Ready other world :=
      fun other hother => hready other (List.mem_cons_of_mem _ hother)
    have hpassed
        (hthere : ∀ found, Fits jobs Ends found → watch.see found withheld position = watch) :
        ∃ found, Fits jobs Ends found ∧ ((watchAll run jobs withheld watch rest).run world).1 =
          (position :: rest).foldl (Watch.see found withheld) watch := by
      obtain ⟨found, hfound, hresult⟩ := ih watch hnodup hrest
      exact ⟨found, hfound, by rw [List.foldl_cons, hthere found hfound, hresult]⟩
    rw [watchAll_cons]
    cases hjob : jobs[position]? with
    | none =>
      apply hpassed
      intro found hfound
      have hnone : found[position]? = none := by
        rw [List.getElem?_eq_none_iff] at hjob ⊢
        rwa [hfound.length_eq]
      rw [Watch.see, hnone]
    | some job =>
      simp only
      split
      · rename_i hcancelled
        apply hpassed
        intro found _
        rw [Watch.see]
        split
        · rfl
        · rw [if_pos hcancelled]
      · rename_i hfree
        have hends := hsteady.ends _ _ _ hjob (hready position List.mem_cons_self)
        rcases hrun : (run job).run world with ⟨result, between⟩
        rw [hrun] at hends
        have hbetween : ∀ other ∈ rest, Ready other
            ((logFailure (watch.logLine? job.backend.bucket result)).run between).2 := by
          intro other hother
          have hkept := hsteady.ready_run other position job world
            (ne_of_mem_of_not_mem hother hnew) hjob (hrest other hother)
          rw [hrun] at hkept
          cases watch.logLine? job.backend.bucket result with
          | none => exact hkept
          | some line => exact hsteady.ready_record other between _ hkept
        obtain ⟨found, hfound, hresult⟩ :=
          ih (watch.notice withheld position result) hnodup hbetween
        have hlt : position < found.length := by
          rw [hfound.length_eq]
          exact (List.getElem?_eq_some_iff.mp hjob).1
        have hsee : watch.see (found.set position result) withheld position =
            watch.notice withheld position result := by
          rw [Watch.see, List.getElem?_set_self hlt]
          exact if_neg hfree
        have hsame : ∀ other ∈ rest, (found.set position result)[other]? = found[other]? :=
          fun other hother => List.getElem?_set_ne (ne_of_mem_of_not_mem hother hnew).symm
        exact ⟨found.set position result, hfound.set hends,
          by rw [List.foldl_cons, hsee, foldl_see_congr hsame, hresult]⟩

end Steadiness

section Noticing

variable {results : List Fetched} {withheld done : List Nat} {watch : Watch} {position : Nat}
  {failure : Failure}

theorem notice_of_escaped (h : watch.escaped ≠ none) (withheld : List Nat) (position : Nat)
    (result : Fetched) : watch.notice withheld position result = watch := by
  unfold Watch.notice
  rw [if_pos (Option.isSome_iff_ne_none.mpr h)]

theorem notice_ok (h : watch.escaped = none) (withheld : List Nat) (position : Nat)
    (outcome : Fetch.Outcome) : watch.notice withheld position (.ok outcome) =
      { watch with outcomes := Entries.put position outcome watch.outcomes } := by
  rw [Watch.notice, if_neg (by simp [h])]

theorem notice_fetch (h : watch.escaped = none) {e : Error} (hfetch : e.isFetch = true)
    (withheld : List Nat) (position : Nat) :
    watch.notice withheld position (.error (.error e)) =
      { watch with
        errors := Entries.put position e watch.errors
        cancelled := watch.stopped withheld position } := by
  rw [Watch.notice, if_neg (by simp [h])]
  simp only [hfetch, if_true]

theorem notice_escaping (h : watch.escaped = none) (hescapes : failure.isFetch = false)
    (withheld : List Nat) (position : Nat) :
    watch.notice withheld position (.error failure) =
      { watch with escaped := some failure } := by
  unfold Watch.notice
  rw [if_neg (by simp [h])]
  cases failure with
  | error e =>
    have hother : e.isFetch = false := hescapes
    simp only [hother, if_false, Bool.false_eq_true]
  | _ => rfl

/-- What a watch says after some positions were passed is true of their results: outcomes and errors
are those of their positions, only positions behind an error are cancelled, and what escaped is a
failure of another kind. As long as nothing has escaped every position is accounted for. -/
structure Noticed (results : List Fetched) (done : List Nat) (watch : Watch) : Prop where
  outcome : ∀ position outcome, Entries.get? position watch.outcomes = some outcome →
    results[position]? = some (.ok outcome)
  error : ∀ position e, Entries.get? position watch.errors = some e →
    results[position]? = some (.error (.error e)) ∧ e.isFetch = true
  cancelled : ∀ position ∈ watch.cancelled, ∃ other, other < position ∧
    Entries.get? other watch.errors ≠ none
  escaped : ∀ failure, watch.escaped = some failure →
    .error failure ∈ results ∧ failure.isFetch = false
  complete : watch.escaped = none → ∀ position ∈ done, position < results.length →
    position ∈ watch.cancelled ∨ Entries.get? position watch.outcomes ≠ none ∨
      Entries.get? position watch.errors ≠ none

namespace Noticed

theorem none (results : List Fetched) : Noticed results [] .none := by
  constructor <;> simp [Watch.none, Entries.get?]

theorem ok (h : Noticed results done watch) (hescaped : watch.escaped = .none)
    {outcome : Fetch.Outcome} (hresult : results[position]? = some (.ok outcome)) :
    Noticed results (position :: done)
      { watch with outcomes := Entries.put position outcome watch.outcomes } := by
  refine ⟨fun other found hfound => ?_, h.error, h.cancelled, h.escaped,
    fun _ other hother hlt => ?_⟩
  · rw [Entries.get?_put] at hfound
    split at hfound
    · rename_i heq
      rw [Option.some.injEq] at hfound
      rw [← heq, ← hfound, hresult]
    · exact h.outcome other found hfound
  · by_cases heq : position = other
    · exact .inr (.inl (by simp [Entries.get?_put, heq]))
    · rcases h.complete hescaped other ((List.mem_cons.mp hother).resolve_left (Ne.symm heq)) hlt
        with hcancelled | houtcome | herror
      · exact .inl hcancelled
      · exact .inr (.inl (by rwa [Entries.get?_put, if_neg heq]))
      · exact .inr (.inr herror)

theorem fetchError (h : Noticed results done watch) (hescaped : watch.escaped = .none) {e : Error}
    (hfetch : e.isFetch = true) (hresult : results[position]? = some (.error (.error e)))
    (withheld : List Nat) : Noticed results (position :: done)
      { watch with
        errors := Entries.put position e watch.errors
        cancelled := watch.stopped withheld position } := by
  have hkept {other : Nat} (hother : Entries.get? other watch.errors ≠ .none) :
      Entries.get? other (Entries.put position e watch.errors) ≠ .none := by
    rw [Entries.get?_put]
    split
    · simp
    · exact hother
  refine ⟨h.outcome, fun other found hfound => ?_, fun other hother => ?_, h.escaped,
    fun _ other hother hlt => ?_⟩
  · rw [Entries.get?_put] at hfound
    split at hfound
    · rename_i heq
      rw [Option.some.injEq] at hfound
      exact ⟨by rw [← heq, ← hfound, hresult], hfound ▸ hfetch⟩
    · exact h.error other found hfound
  · -- The first error cancels positions behind it; a later one cancels nothing more.
    by_cases hfirst : watch.errors = []
    · simp only [Watch.stopped, if_pos hfirst, List.mem_filter, decide_eq_true_eq] at hother
      exact ⟨position, hother.2.1, by simp [Entries.get?_put]⟩
    · simp only [Watch.stopped, if_neg hfirst] at hother
      obtain ⟨earlier, hlt, herror⟩ := h.cancelled other hother
      exact ⟨earlier, hlt, hkept herror⟩
  · by_cases heq : position = other
    · exact .inr (.inr (by simp [Entries.get?_put, heq]))
    · rcases h.complete hescaped other ((List.mem_cons.mp hother).resolve_left (Ne.symm heq)) hlt
        with hcancelled | houtcome | herror
      · by_cases hfirst : watch.errors = []
        · obtain ⟨earlier, -, herror⟩ := h.cancelled other hcancelled
          simp [hfirst, Entries.get?] at herror
        · exact .inl (by simpa only [Watch.stopped, if_neg hfirst] using hcancelled)
      · exact .inr (.inl houtcome)
      · exact .inr (.inr (hkept herror))

-- What is noticed stays true.
theorem see (h : Noticed results done watch) (withheld : List Nat) (position : Nat) :
    Noticed results (position :: done) (watch.see results withheld position) := by
  -- A position that is passed over is accounted for, or there is no such position.
  have hpassed (hthere : position < results.length → watch.escaped = .none →
      position ∈ watch.cancelled) : Noticed results (position :: done) watch := by
    refine { h with complete := fun hescaped other hother hlt => ?_ }
    rcases List.mem_cons.mp hother with rfl | hother
    · exact .inl (hthere hlt hescaped)
    · exact h.complete hescaped other hother hlt
  rw [Watch.see]
  cases hresult : results[position]? with
  | none =>
    apply hpassed
    intro hlt
    rw [List.getElem?_eq_none_iff] at hresult
    omega
  | some result =>
    simp only
    split
    · rename_i hcancelled
      exact hpassed fun _ _ => hcancelled
    cases hescaped : watch.escaped with
    | some failure =>
      rw [notice_of_escaped (by simp [hescaped])]
      exact hpassed fun _ hnone => by simp [hescaped] at hnone
    | none =>
      cases result with
      | ok outcome =>
        rw [notice_ok hescaped]
        exact h.ok hescaped hresult
      | error failure =>
        cases hkind : failure.isFetch with
        | true =>
          obtain ⟨e, rfl⟩ : ∃ e, failure = .error e := by
            cases failure <;> simp_all [Failure.isFetch]
          rw [notice_fetch hescaped hkind]
          exact h.fetchError hescaped hkind hresult withheld
        | false =>
          rw [notice_escaping hescaped hkind]
          refine ⟨h.outcome, h.error, h.cancelled, fun found hfound => ?_, by simp⟩
          obtain rfl : failure = found := by simpa using hfound
          exact ⟨List.mem_of_getElem? hresult, hkind⟩

theorem foldl (h : Noticed results done watch) (withheld order : List Nat) :
    Noticed results (order.reverse ++ done) (order.foldl (Watch.see results withheld) watch) := by
  induction order generalizing watch done with
  | nil => exact h
  | cons position rest ih =>
    rw [List.foldl_cons, List.reverse_cons, List.append_assoc]
    exact ih (h.see withheld position)

-- If nothing has escaped, merging comes to what the results come to in order: no position is
-- cancelled in front of the first error.
theorem merge_eq (h : Noticed results done watch) (hescaped : watch.escaped = .none)
    (hdone : ∀ position, position < results.length → position ∈ done) (progress : Progress) :
    watch.merge progress (List.range results.length) = progress.gather results := by
  have hrest (before rest : List Fetched) (progress : Progress) (hsplit : results = before ++ rest)
      (hclean : ∀ position, position < before.length →
        Entries.get? position watch.errors = .none) :
      watch.merge progress (List.range' before.length rest.length) = progress.gather rest := by
    induction rest generalizing before progress with
    | nil => rfl
    | cons result rest ih =>
      have hresult : results[before.length]? = some result := by simp [hsplit]
      have hlt : before.length < results.length := by simp [hsplit]
      rw [List.length_cons, List.range'_succ, Watch.merge]
      cases herror : Entries.get? before.length watch.errors with
      | some e =>
        have hsame := (h.error _ e herror).1
        rw [hresult, Option.some.injEq] at hsame
        rw [hsame, Progress.gather]
      | none =>
        have hnext := ih (before ++ [result])
        rw [List.length_append, List.length_singleton] at hnext
        have hclean' : ∀ position, position < before.length + 1 →
            Entries.get? position watch.errors = .none := by
          intro position hposition
          rcases Nat.lt_succ_iff_lt_or_eq.mp hposition with hposition | rfl
          · exact hclean position hposition
          · exact herror
        rcases h.complete hescaped _ (hdone _ hlt) hlt with hcancelled | houtcome | hother
        · obtain ⟨earlier, hearlier, hthere⟩ := h.cancelled _ hcancelled
          exact absurd (hclean earlier hearlier) hthere
        · obtain ⟨outcome, hget⟩ := Option.ne_none_iff_exists'.mp houtcome
          have hsame := h.outcome _ outcome hget
          rw [hresult, Option.some.injEq] at hsame
          simp only [hget]
          rw [hsame, Progress.gather]
          exact hnext _ (by simp [hsplit]) hclean'
        · exact absurd herror hother
  rw [List.range_eq_range']
  exact hrest [] results progress rfl (by simp)

end Noticed
end Noticing

/-! ## 3. How fetches with fixed results end -/

/-- What fetches with fixed results that run at the same time come to under a schedule. -/
def Schedule.progress (schedule : Schedule) (results : List Fetched) : Progress :=
  match (schedule.order.foldl (Watch.see results schedule.withheld) .none).escaped with
  | some failure => { Progress.none with failure := some failure }
  | none => Progress.none.gather results

section Scheduling

variable {results : List Fetched} {withheld order : List Nat} {watch : Watch}
  {schedule : Schedule} {failure : Failure}

theorem pullTogether_steady {run : Run} {jobs : List Fetch.Job} {Ends : Nat → Fetched → Prop}
    {Ready : Nat → World → Prop} {world : World} (hsteady : Steady run jobs Ends Ready)
    (hfits : Fits jobs Ends results) (horder : schedule.order.Perm (List.range jobs.length))
    (hready : ∀ position, position < jobs.length → Ready position world) :
    ∃ found, Fits jobs Ends found ∧
      ((pullTogether run schedule jobs).run world).1 = schedule.progress found := by
  have hnodup : schedule.order.Nodup := horder.nodup_iff.mpr List.nodup_range
  have hmem : ∀ position, position ∈ schedule.order ↔ position < jobs.length :=
    fun position => horder.mem_iff.trans List.mem_range
  obtain ⟨found, hfound, hwatch⟩ := watchAll_steady hsteady hfits schedule.withheld .none hnodup
    fun position hposition => hready position ((hmem position).mp hposition)
  refine ⟨found, hfound, ?_⟩
  have hnoticed := (Noticed.none found).foldl schedule.withheld schedule.order
  rw [pullTogether_run, Schedule.progress, ← hwatch]
  rw [← hwatch] at hnoticed
  rcases hrun : (watchAll run jobs schedule.withheld .none schedule.order).run world with
    ⟨watch, between⟩
  rw [hrun] at hnoticed
  cases hescaped : watch.escaped with
  | some failure => simp only [hescaped]
  | none =>
    simp only [hescaped]
    rw [← hfound.length_eq]
    apply hnoticed.merge_eq hescaped
    intro position hlt
    rw [List.append_nil, List.mem_reverse, hmem, ← hfound.length_eq]
    exact hlt

-- What has escaped stays.
theorem foldl_see_of_escaped (h : watch.escaped ≠ none) :
    order.foldl (Watch.see results withheld) watch = watch := by
  induction order with
  | nil => rfl
  | cons position rest ih =>
    have hsee : watch.see results withheld position = watch := by
      rw [Watch.see]
      split
      · rfl
      · rw [notice_of_escaped h, ite_self]
    rw [List.foldl_cons, hsee, ih]

theorem foldl_see_of_cancelled (h : ∀ position ∈ order, position ∈ watch.cancelled) :
    order.foldl (Watch.see results withheld) watch = watch := by
  induction order with
  | nil => rfl
  | cons position rest ih =>
    have hsee : watch.see results withheld position = watch := by
      rw [Watch.see]
      split
      · rfl
      · rw [if_pos (h position List.mem_cons_self)]
    rw [List.foldl_cons, hsee, ih fun other hother => h other (List.mem_cons_of_mem _ hother)]

-- Only a failure of another kind than errors about fetching escapes.
theorem progress_cases (schedule : Schedule) (results : List Fetched) :
    schedule.progress results = Progress.none.gather results ∨
      ∃ failure, .error failure ∈ results ∧ failure.isFetch = false ∧
        schedule.progress results = { Progress.none with failure := some failure } := by
  have hnoticed := (Noticed.none results).foldl schedule.withheld schedule.order
  rw [Schedule.progress]
  cases hescaped : (schedule.order.foldl (Watch.see results schedule.withheld) .none).escaped with
  | some failure =>
    obtain ⟨hmem, hkind⟩ := hnoticed.escaped failure hescaped
    exact .inr ⟨failure, hmem, hkind, rfl⟩
  | none => exact .inl rfl

-- If the first fetch that fails does so in another way than with an error about fetching, a failure
-- escapes under every schedule: no fetch in front of it can have it cancelled.
theorem progress_of_first_escaping (horder : schedule.order.Perm (List.range results.length))
    (hfirst : firstFailure? results = some failure) (hkind : failure.isFetch = false) :
    ∃ escaping, .error escaping ∈ results ∧ escaping.isFetch = false ∧
      schedule.progress results = { Progress.none with failure := some escaping } := by
  have hnoticed := (Noticed.none results).foldl schedule.withheld schedule.order
  rw [Schedule.progress]
  cases hescaped : (schedule.order.foldl (Watch.see results schedule.withheld) .none).escaped with
  | some escaping =>
    obtain ⟨hmem, hkind⟩ := hnoticed.escaped escaping hescaped
    exact ⟨escaping, hmem, hkind, rfl⟩
  | none =>
    exfalso
    obtain ⟨position, hresult, hbefore⟩ := position_of_firstFailure hfirst
    have hlt := (List.getElem?_eq_some_iff.mp hresult).1
    have hdone : position ∈ schedule.order.reverse ++ [] := by
      rw [List.append_nil, List.mem_reverse, horder.mem_iff]
      exact List.mem_range.mpr hlt
    rcases hnoticed.complete hescaped position hdone hlt with hcancelled | houtcome | herror
    · obtain ⟨earlier, hearlier, hthere⟩ := hnoticed.cancelled position hcancelled
      obtain ⟨e, he⟩ := Option.ne_none_iff_exists'.mp hthere
      obtain ⟨outcome, hok⟩ := hbefore earlier hearlier
      simp [(hnoticed.error earlier e he).1] at hok
    · obtain ⟨outcome, hget⟩ := Option.ne_none_iff_exists'.mp houtcome
      simp [hnoticed.outcome position outcome hget] at hresult
    · obtain ⟨e, he⟩ := Option.ne_none_iff_exists'.mp herror
      obtain ⟨hsame, hfetch⟩ := hnoticed.error position e he
      rw [hresult, Option.some.injEq, Except.error.injEq] at hsame
      rw [hsame] at hkind
      exact absurd hfetch (by simpa [Failure.isFetch] using hkind)

-- A fetch that ends first and whose failure escapes decides what is raised.
theorem progress_of_ended_first {position : Nat} {rest : List Nat}
    (hresult : results[position]? = some (.error failure)) (hkind : failure.isFetch = false) :
    (Schedule.mk (position :: rest) withheld).progress results =
      { Progress.none with failure := some failure } := by
  have hsee : Watch.none.see results withheld position =
      { Watch.none with escaped := some failure } := by
    rw [Watch.see]
    simp only [hresult]
    rw [if_neg (by simp [Watch.none]), notice_escaping rfl hkind]
  have hwatch : ({ Watch.none with escaped := some failure } : Watch).escaped ≠ none := by simp
  rw [Schedule.progress]
  simp only [List.foldl_cons, hsee, foldl_see_of_escaped hwatch]

-- A position noted next is the highest one.
theorem lt_succ_of_put {outcomes : List (Nat × Fetch.Outcome)} {position : Nat}
    (h : ∀ entry ∈ outcomes, entry.1 < position) (outcome : Fetch.Outcome) :
    ∀ entry ∈ Entries.put position outcome outcomes, entry.1 < position + 1 := by
  intro entry hentry
  have hkey := List.mem_map_of_mem (f := Prod.fst) hentry
  rw [Entries.map_fst_put] at hkey
  have hold : ∀ key ∈ outcomes.map Prod.fst, key < position := by
    intro key hkey
    obtain ⟨old, hold, rfl⟩ := List.mem_map.mp hkey
    exact h old hold
  split at hkey
  · exact (hold _ hkey).trans (Nat.lt_succ_self _)
  · rcases List.mem_append.mp hkey with hkey | hkey
    · exact (hold _ hkey).trans (Nat.lt_succ_self _)
    · rw [List.mem_singleton.mp hkey]
      exact Nat.lt_succ_self _

-- Fetches that end in order, each as late as it can: an error about fetching has all behind it
-- cancelled, and any other failure escapes. By induction on the results that are yet to come.
theorem escaped_of_held_back (before rest : List Fetched) (watch : Watch)
    (hsplit : results = before ++ rest) (hclean : watch.Clean) (hfree : watch.cancelled = [])
    (hoccupied : ∀ entry ∈ watch.outcomes, entry.1 < before.length) :
    ((List.range' before.length rest.length).foldl
      (Watch.see results (List.range results.length)) watch).escaped =
      (firstFailure? rest).filter (! ·.isFetch) := by
  induction rest generalizing before watch with
  | nil => exact hclean.2
  | cons result rest ih =>
    have hresult : results[before.length]? = some result := by simp [hsplit]
    have hlength : results.length = before.length + (rest.length + 1) := by simp [hsplit]
    rw [List.length_cons, List.range'_succ, List.foldl_cons, Watch.see]
    simp only [hresult]
    rw [if_neg (by simp [hfree])]
    cases result with
    | ok outcome =>
      rw [notice_ok hclean.2]
      have hnext := ih (before ++ [.ok outcome])
        { watch with outcomes := Entries.put before.length outcome watch.outcomes }
        (by simp [hsplit]) hclean hfree
      rw [List.length_append, List.length_singleton] at hnext
      exact hnext (lt_succ_of_put hoccupied outcome)
    | error failure =>
      cases hkind : failure.isFetch with
      | false =>
        rw [notice_escaping hclean.2 hkind, foldl_see_of_escaped (by simp)]
        simp [firstFailure?, Option.filter, hkind]
      | true =>
        obtain ⟨e, rfl⟩ : ∃ e, failure = .error e := by
          cases failure <;> simp_all [Failure.isFetch]
        rw [notice_fetch hclean.2 hkind, foldl_see_of_cancelled]
        · simpa [firstFailure?, Option.filter, hkind] using hclean.2
        · intro position hposition
          rw [List.mem_range'_1] at hposition
          simp only [Watch.stopped, if_pos hclean.1, List.mem_filter, List.mem_range,
            decide_eq_true_eq]
          refine ⟨by omega, by omega, fun entry hentry => ?_⟩
          have hentry := hoccupied entry hentry
          omega

-- Fetches that end in order, each as late as it can, raise the first failure.
theorem failure_of_held_back (results : List Fetched) :
    ((Schedule.mk (List.range results.length) (List.range results.length)).progress
      results).failure = firstFailure? results := by
  have hescaped := escaped_of_held_back [] results .none results.nil_append.symm ⟨rfl, rfl⟩ rfl
    (by simp [Watch.none])
  rw [List.length_nil, ← List.range_eq_range'] at hescaped
  rw [Schedule.progress]
  simp only [hescaped]
  have hgather := failure_gather (show Progress.none.failure = none from rfl) results
  cases hfirst : firstFailure? results with
  | none =>
    rw [hfirst] at hgather
    exact hgather
  | some failure =>
    rw [hfirst] at hgather
    cases hkind : failure.isFetch with
    | false => simp [Option.filter, hkind]
    | true => simpa [Option.filter, hkind] using hgather

-- If every failure that can escape is the first failure, schedules do not matter: either nothing
-- escapes, or the first failure does.
theorem progress_eq_of_first {s t : Schedule}
    (hfirst : ∀ failure, .error failure ∈ results → failure.isFetch = false →
      firstFailure? results = some failure)
    (hs : s.order.Perm (List.range results.length))
    (ht : t.order.Perm (List.range results.length)) : s.progress results = t.progress results := by
  by_cases hescapes : ∃ failure, .error failure ∈ results ∧ failure.isFetch = false
  · obtain ⟨failure, hmem, hkind⟩ := hescapes
    have hfailure := hfirst failure hmem hkind
    have hraised {schedule : Schedule} (horder : schedule.order.Perm (List.range results.length)) :
        schedule.progress results = { Progress.none with failure := some failure } := by
      obtain ⟨escaping, hmem, hkind, hprogress⟩ :=
        progress_of_first_escaping horder hfailure hkind
      have hsame := hfirst escaping hmem hkind
      rw [hfailure] at hsame
      rw [hprogress, hsame]
    rw [hraised hs, hraised ht]
  · have hgathered (schedule : Schedule) :
        schedule.progress results = Progress.none.gather results := by
      rcases progress_cases schedule results with hgather | ⟨failure, hmem, hkind, -⟩
      · exact hgather
      · exact absurd ⟨failure, hmem, hkind⟩ hescapes
    rw [hgathered, hgathered]

-- Otherwise two schedules raise different failures: the one in which the other failure is noticed
-- first, and the one in which everything is held back.
theorem first_of_failure_eq
    (hsame : ∀ s t : Schedule, s.order.Perm (List.range results.length) →
      t.order.Perm (List.range results.length) →
      (s.progress results).failure = (t.progress results).failure)
    (hmem : .error failure ∈ results) (hkind : failure.isFetch = false) :
    firstFailure? results = some failure := by
  obtain ⟨position, hlt, hget⟩ := List.getElem_of_mem hmem
  have hresult : results[position]? = some (.error failure) := by
    rw [List.getElem?_eq_getElem hlt, hget]
  have horder : (position :: (List.range results.length).erase position).Perm
      (List.range results.length) :=
    (List.perm_cons_erase (List.mem_range.mpr hlt)).symm
  have hended := hsame ⟨position :: (List.range results.length).erase position, []⟩
    ⟨List.range results.length, List.range results.length⟩ horder (.refl _)
  rw [progress_of_ended_first hresult hkind, failure_of_held_back] at hended
  exact hended.symm

end Scheduling

/-! ## 4. Pulls under schedules -/

theorem result_concluded (cache : Cache) (progress : Progress) (world : World) :
    (concluded cache progress world).1 =
      match progress.failure with
      | some failure => .error failure
      | none => .ok progress.outcomes := by
  rw [concluded]
  cases progress.failure <;> rfl

theorem filenames_concluded (cache : Cache) (progress : Progress) (world : World) :
    (concluded cache progress world).2.1.filenames = progress.filenames := by
  rw [concluded]
  cases progress.failure <;> rfl

section Pulls

variable {run : Run} {cache : Cache} {schedule : Schedule} {world : World}

theorem pullValid_together (hvalid : cache.config.check = .ok ()) (hworkers : cache.workers ≠ 1)
    (hmany : cache.config.backends.length ≠ 1) {results : List Fetched}
    {Ends : Nat → Fetched → Prop} {Ready : Nat → World → Prop}
    (hsteady : Steady run cache.jobs Ends Ready) (hfits : Fits cache.jobs Ends results)
    (horder : schedule.order.Perm (List.range cache.jobs.length))
    (hready : ∀ position, position < cache.jobs.length →
      Ready position (announced cache world)) :
    ∃ found pulled, Fits cache.jobs Ends found ∧ (pullValid run schedule).runOn cache world =
      concluded cache (schedule.progress found) pulled := by
  have hlength : cache.jobs.length ≠ 1 := by rwa [jobs, List.length_map]
  obtain ⟨found, hfound, hprogress⟩ := pullTogether_steady hsteady hfits horder hready
  rw [pullValid_run _ _ hvalid, pullAll, if_neg (by simp [hworkers, hlength])]
  rcases hrun : (pullTogether run schedule cache.jobs).run (announced cache world) with
    ⟨progress, pulled⟩
  rw [hrun] at hprogress
  exact ⟨found, pulled, hfound, by rw [← hprogress]⟩

/-- **With several fetches at a time whose results are fixed, all schedules end alike if and only if
every failure that is no error about fetching is that of the first backend that fails.** -/
theorem schedule_independent_iff {outcome : Fetch.Job → Fetched}
    (hvalid : cache.config.check = .ok ()) (hworkers : cache.workers ≠ 1)
    (hmany : cache.config.backends.length ≠ 1)
    (hfixed : ∀ job ∈ cache.jobs, ∀ world, ((run job).run world).1 = outcome job)
    (world : World) :
    (∀ s t : Schedule, s.order.Perm (List.range cache.config.backends.length) →
        t.order.Perm (List.range cache.config.backends.length) →
        ((pullValid run s).runOn cache world).1 = ((pullValid run t).runOn cache world).1 ∧
          ((pullValid run s).runOn cache world).2.1.filenames =
            ((pullValid run t).runOn cache world).2.1.filenames) ↔
      ∀ failure, .error failure ∈ cache.jobs.map outcome → failure.isFetch = false →
        firstFailure? (cache.jobs.map outcome) = some failure := by
  -- Fetches with fixed results end with these and no others.
  let Ends (position : Nat) (result : Fetched) : Prop :=
    (cache.jobs.map outcome)[position]? = some result
  have hsteady : Steady run cache.jobs Ends fun _ _ => True := by
    refine ⟨fun position job world hjob _ => ?_, fun _ _ _ _ _ _ _ => trivial,
      fun _ _ _ _ => trivial⟩
    show (cache.jobs.map outcome)[position]? = _
    rw [List.getElem?_map, hjob, hfixed job (List.mem_of_getElem? hjob) world]
    rfl
  have hfits : Fits cache.jobs Ends (cache.jobs.map outcome) := ⟨List.length_map _, fun _ _ h => h⟩
  have hunique {found : List Fetched} (h : Fits cache.jobs Ends found) :
      found = cache.jobs.map outcome := by
    apply List.ext_getElem (by rw [h.length_eq, List.length_map])
    intro position hlt hlt'
    have hsame : (cache.jobs.map outcome)[position]? = some found[position] :=
      h.ends position _ (List.getElem?_eq_getElem hlt)
    rw [List.getElem?_eq_getElem hlt', Option.some.injEq] at hsame
    exact hsame.symm
  have hlength : cache.config.backends.length = (cache.jobs.map outcome).length := by
    rw [List.length_map, jobs, List.length_map]
  have hpull (schedule : Schedule)
      (horder : schedule.order.Perm (List.range (cache.jobs.map outcome).length)) :
      ∃ pulled, (pullValid run schedule).runOn cache world =
        concluded cache (schedule.progress (cache.jobs.map outcome)) pulled := by
    obtain ⟨found, pulled, hfound, hrun⟩ := pullValid_together hvalid hworkers hmany hsteady hfits
      (by rwa [← hfits.length_eq]) fun _ _ => trivial
    exact ⟨pulled, hunique hfound ▸ hrun⟩
  rw [hlength]
  constructor
  · intro hsame failure hmem hkind
    refine first_of_failure_eq (fun s t hs ht => ?_) hmem hkind
    obtain ⟨pulled, hrun⟩ := hpull s hs
    obtain ⟨pulled', hrun'⟩ := hpull t ht
    have hresults := (hsame s t hs ht).1
    rw [hrun, hrun', result_concluded, result_concluded] at hresults
    cases hleft : (s.progress (cache.jobs.map outcome)).failure <;>
      cases hright : (t.progress (cache.jobs.map outcome)).failure <;>
      simp_all
  · intro hfirst s t hs ht
    obtain ⟨pulled, hrun⟩ := hpull s hs
    obtain ⟨pulled', hrun'⟩ := hpull t ht
    rw [hrun, hrun', progress_eq_of_first hfirst hs ht, result_concluded, result_concluded,
      filenames_concluded, filenames_concluded]
    exact ⟨rfl, rfl⟩

end Pulls

/-- A cache of two backends that are fetched at the same time; the second one names a region. -/
def regionCache : Cache :=
  .make ⟨"d", none, [⟨"b", ["k"], [], [], [], []⟩, ⟨"c", ["k"], "nowhere", [], [], []⟩]⟩ true 2

/-- Fetches that fail with errors about fetching, except that of the bucket `c`, which succeeds. -/
def failingOutcome (job : Fetch.Job) : Fetched :=
  if job.backend.bucket = "c" then .ok ⟨"c", job.filenames, job.backend.keys, []⟩
  else .error (.error (Fetch.keyError job "k" "lost"))

/-- An error about fetching and an outcome end alike, whether the second fetch is held back or ends
first. -/
theorem schedule_independent_of_fetch_errors :
    let held := (pullValid (fun job => pure (failingOutcome job)) ⟨[0, 1], [1]⟩).runOn regionCache
      sampleWorld
    let ended := (pullValid (fun job => pure (failingOutcome job)) ⟨[1, 0], []⟩).runOn regionCache
      sampleWorld
    held.1.toBool = false ∧ held.1 = ended.1 ∧ held.2.1.filenames = ended.2.1.filenames := by
  have hvalid : regionCache.config.check = .ok () := by decide
  have hfixed : ∀ job ∈ regionCache.jobs, ∀ world,
      ((pure (failingOutcome job) : StateM World Fetched).run world).1 = failingOutcome job :=
    fun _ _ _ => rfl
  have hall := schedule_independent_iff hvalid (by decide) (by decide) hfixed sampleWorld
  refine ⟨by decide +kernel, hall.mpr (fun failure hmem hkind => ?_) ⟨[0, 1], [1]⟩ ⟨[1, 0], []⟩
    (by decide) (by decide)⟩
  have hfailures : regionCache.jobs.map failingOutcome =
      [.error (.error (Fetch.keyError (regionCache.job ⟨"b", ["k"], [], [], [], []⟩) "k" "lost")),
        .ok ⟨"c", (regionCache.job ⟨"c", ["k"], "nowhere", [], [], []⟩).filenames, ["k"], []⟩] := by
    decide
  rw [hfailures] at hmem
  obtain rfl : failure = _ := by simpa using hmem
  exact absurd hkind (by decide)

/-- A cloud that has no object and knows no region `nowhere`. -/
def emptyCloud : Cloud where
  session request := .ok request.region
  connection c := if c.session.region = some "nowhere" then some .noRegion else none
  assumeRole _ _ := .error .noCredentials
  identity _ := .error .noCredentials
  transfer _ _ := ⟨[], some (.refused "404" "HeadObject" "Not Found"), false, 0⟩

/-- **What a pull raises depends on whether the second fetch has started when the first one fails**:
if it was held back it is cancelled and the missing object is reported, which is the failure of the
first backend; if it runs, its missing region is. -/
theorem schedules_differ :
    regionCache.config.check = .ok () ∧
      ((pull emptyCloud .standard none ⟨[0, 1], [1]⟩).runOn regionCache sampleWorld).1 =
        .error (.error (Fetch.transferError (regionCache.job ⟨"b", ["k"], [], [], [], []⟩) "k"
          (.refused "404" "HeadObject" "Not Found"))) ∧
      ((pull emptyCloud .standard none (.inOrder 2)).runOn regionCache sampleWorld).1 =
        .error (.error Client.regionError) ∧
      ((pull emptyCloud .standard none ⟨[0, 1], [1]⟩).runOn regionCache sampleWorld).1 ≠
        ((pull emptyCloud .standard none (.inOrder 2)).runOn regionCache sampleWorld).1 := by
  have hheld : ((pull emptyCloud .standard none ⟨[0, 1], [1]⟩).runOn regionCache sampleWorld).1 =
      .error (.error (Fetch.transferError (regionCache.job ⟨"b", ["k"], [], [], [], []⟩) "k"
        (.refused "404" "HeadObject" "Not Found"))) := by decide +kernel
  have hran : ((pull emptyCloud .standard none (.inOrder 2)).runOn regionCache sampleWorld).1 =
      .error (.error Client.regionError) := by decide +kernel
  refine ⟨by decide, hheld, hran, ?_⟩
  rw [hheld, hran]
  decide

end Cache
end StateOwnership
