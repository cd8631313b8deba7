import StateOwnership.Proofs.Fetch.Delivering

/-!
# Batches that are cancelled

A batch that may be cancelled is waited for until all its transfers are done or the cancellation
comes, whichever is first; if both come with the same wait, the batch is cancelled. **A cancelled
batch keeps the files of exactly the transfers that succeeded by then; a batch that is done before
ends as if nothing could cancel it.**
-/

namespace StateOwnership.Fetch

/-! ## 1. Waits -/

/-- The waits until a transfer is done, after some waits. -/
def waitsLeft (cloud : Cloud) (bucket : Text) (ticks : Nat) (t : Transfer) : Nat :=
  (cloud.transfer bucket t.key).readyAfter - ticks

/-- The waits until all transfers are done, after some waits. -/
def mostWaitsLeft (cloud : Cloud) (bucket : Text) (ticks : Nat) (transfers : List Transfer) : Nat :=
  transfers.foldr (fun t most => max (waitsLeft cloud bucket ticks t) most) 0

section Waits

variable {cloud : Cloud} {bucket : Text} {transfers : List Transfer} {t : Transfer}
  {ticks limit last c n : Nat} {start : World}

theorem waitsLeft_le_iff :
    waitsLeft cloud bucket ticks t ≤ n ↔ (cloud.transfer bucket t.key).readyAfter ≤ ticks + n :=
  Nat.sub_le_iff_le_add'

theorem mostWaitsLeft_le_iff :
    mostWaitsLeft cloud bucket ticks transfers ≤ n ↔
      ∀ t ∈ transfers, waitsLeft cloud bucket ticks t ≤ n := by
  induction transfers with
  | nil => simp [mostWaitsLeft]
  | cons t rest ih =>
    rw [List.forall_mem_cons, ← ih]
    exact Nat.max_le

-- Transfers that were sent are all done after the longest of their waits.
theorem all_isDone_iff :
    (transfers.map (·.deliver cloud bucket)).all (·.isDone (ticks + n)) = true ↔
      mostWaitsLeft cloud bucket ticks transfers ≤ n := by
  simp only [mostWaitsLeft_le_iff, waitsLeft_le_iff, List.all_eq_true, List.forall_mem_map,
    Transfer.isDone, Transfer.deliver, decide_eq_true_eq]

-- Each wait brings the last completion and the cancellation one wait nearer, and the first of them
-- to come ends the waiting.
theorem waits_eq (hdone : ∀ n, ticks ≤ n → (transfers.all (·.isDone n) = true ↔ last ≤ n))
    (hlast : ticks ≤ last) (hlimit : ticks < limit) :
    waits limit transfers ticks = (decide (last < limit), min last limit) := by
  fun_induction waits limit transfers ticks with
  | case1 ticks hall =>
    have hreached : last = ticks := Nat.le_antisymm ((hdone ticks le_rfl).mp hall) hlast
    subst hreached
    rw [decide_eq_true hlimit, Nat.min_eq_left hlimit.le]
  | case2 ticks hall hcancel =>
    have hpending : ticks < last := Nat.not_le.mp (mt (hdone ticks le_rfl).mpr hall)
    have hreached : limit = ticks + 1 := Nat.le_antisymm hcancel hlimit
    subst hreached
    rw [decide_eq_false (Nat.not_lt.mpr hpending), Nat.min_eq_right hpending]
  | case3 ticks hall hcancel ih =>
    have hpending : ticks < last := Nat.not_le.mp (mt (hdone ticks le_rfl).mpr hall)
    exact ih (fun n hn => hdone n (Nat.le_of_succ_le hn)) hpending (Nat.not_le.mp hcancel)

-- Transfers that were sent are waited for until the last is done or the cancellation comes.
theorem await_of_sent (job : Job) (hc : 0 < c) :
    (await job (some (start.ticks + c)) (transfers.map (·.deliver cloud bucket))).runIn start =
      (if mostWaitsLeft cloud bucket start.ticks transfers < c then .ok ()
        else .error (.error (cancelledError job)),
        { start with
          ticks := start.ticks + min c (mostWaitsLeft cloud bucket start.ticks transfers) }) := by
  have hdone (n : Nat) (hn : start.ticks ≤ n) :
      (transfers.map (·.deliver cloud bucket)).all (·.isDone n) = true ↔
        start.ticks + mostWaitsLeft cloud bucket start.ticks transfers ≤ n := by
    obtain ⟨more, rfl⟩ := Nat.exists_eq_add_of_le hn
    rw [all_isDone_iff, Nat.add_le_add_iff_left]
  have hwaits := waits_eq hdone (Nat.le_add_right _ _) (Nat.lt_add_of_pos_right hc)
  simp only [await, Action.runIn_bind, Action.runIn_ticks, Action.runIn_modify, hwaits,
    Nat.add_lt_add_iff_left, decide_eq_true_eq, Nat.add_min_add_left, Nat.min_comm c]
  split <;> rfl

-- A batch is cancelled if the cancellation comes no later than the last completion.
theorem finish_of_cancelled (job : Job) (hc : 0 < c)
    (hlate : c ≤ mostWaitsLeft cloud bucket start.ticks transfers) :
    (finish job (some (start.ticks + c)) (transfers.map (·.deliver cloud bucket)) none).runIn
      start = (.error (.error (cancelledError job)), { start with ticks := start.ticks + c }) := by
  simp only [finish, Action.runIn_bind, await_of_sent job hc, if_neg (Nat.not_lt.mpr hlate),
    Nat.min_eq_left hlate]

-- Otherwise the results are asked for when the last transfer is done.
theorem finish_of_done (job : Job) (hc : mostWaitsLeft cloud bucket start.ticks transfers < c) :
    (finish job (some (start.ticks + c)) (transfers.map (·.deliver cloud bucket)) none).runIn
      start = (collect job (transfers.map (·.deliver cloud bucket))).runIn { start with
        ticks := start.ticks + mostWaitsLeft cloud bucket start.ticks transfers } := by
  simp only [finish, Action.runIn_bind, await_of_sent job (Nat.zero_lt_of_lt hc), if_pos hc,
    Nat.min_eq_right hc.le]

end Waits

/-! ## 2. Transfers that are done at once -/

/-- The same services, with all transfers done as soon as they are submitted. -/
def prompt (cloud : Cloud) : Cloud :=
  { cloud with transfer := fun bucket key => { cloud.transfer bucket key with readyAfter := 0 } }

/-- What a run comes to, but after another number of waits. -/
def retimed {α : Type} (ticks : Nat) (run : Except Failure α × World) : Except Failure α × World :=
  (run.1, { run.2 with ticks := ticks })

section Prompt

variable {cloud : Cloud} {bucket : Text} {transfers : List Transfer} {t : Transfer}
  {world start : World} {c n : Nat}

-- A transfer that is accepted is noted, and what is written at once is written.
theorem submit_cons (h : Accepted cloud bucket t) (rest : List Transfer) (world : World) :
    ((submit cloud bucket (t :: rest)).runIn world).2 =
      ((submit cloud bucket rest).runIn { world.call (.download bucket t.key) with
        files := (world.call (.download bucket t.key)).files.overwriteStart t.place
          (writtenAtOnce (cloud.transfer bucket t.key).body) }).2 := by
  simp only [submit, Action.runIn_bind, Action.runIn_call]
  split
  · rename_i e hsubmission hfault
    exact absurd (h hsubmission) (by simp [hfault])
  · simp only [Action.runIn_bind, Action.runIn_changeFiles]
    split
    · rename_i hrest
      rw [hrest]
      rfl
    · rename_i hrest
      rw [hrest]

-- Submitting does not depend on when a transfer will be done.
theorem submit_prompt (h : ∀ t ∈ transfers, Accepted cloud bucket t) (world : World) :
    ((submit (prompt cloud) bucket transfers).runIn world).2 =
      ((submit cloud bucket transfers).runIn world).2 := by
  induction transfers generalizing world with
  | nil => rfl
  | cons t rest ih =>
    have haccepted := h t List.mem_cons_self
    have hprompt : Accepted (prompt cloud) bucket t := haccepted
    rw [submit_cons haccepted, submit_cons hprompt]
    exact ih (fun s hs => h s (List.mem_cons_of_mem _ hs)) _

theorem verdict_prompt (hdone : (cloud.transfer bucket t.key).readyAfter ≤ n) (ticks : Nat) :
    (t.deliver (prompt cloud) bucket).verdict ticks = (t.deliver cloud bucket).verdict n := by
  simp only [Transfer.verdict, Transfer.deliver, prompt, Nat.zero_le, if_pos hdone, if_true]

-- Removing does not depend on the number of waits.
theorem remove_retimed (n : Nat) (t : Transfer) (world : World) :
    (remove t).runIn { world with ticks := n } = retimed n ((remove t).runIn world) := by
  simp only [remove, Action.runIn_bind, Action.runIn_files]
  split
  · rfl
  · simp only [Action.runIn_bind, Action.runIn_setFiles]
    split <;> rfl
  · rfl

-- Discarding transfers that are done is discarding them as if they had been done at once.
theorem discard_prompt
    (hdone : ∀ t ∈ transfers, (cloud.transfer bucket t.key).readyAfter ≤ n) (world : World) :
    (discard (transfers.map (·.deliver cloud bucket))).runIn { world with ticks := n } =
      retimed n ((discard (transfers.map (·.deliver (prompt cloud) bucket))).runIn world) := by
  induction transfers generalizing world with
  | nil => rfl
  | cons t rest ih =>
    have hrest := ih fun s hs => hdone s (List.mem_cons_of_mem _ hs)
    have hverdict := verdict_prompt (hdone t List.mem_cons_self) world.ticks
    simp only [List.map_cons, discard, Action.runIn_bind, Action.runIn_ticks, hverdict]
    cases (t.deliver cloud bucket).verdict n with
    | succeeded => exact hrest world
    | interrupted => rfl
    | incomplete =>
      have hremove := remove_retimed n (t.deliver cloud bucket) world
      have hsame : remove (t.deliver (prompt cloud) bucket) = remove (t.deliver cloud bucket) := rfl
      simp only [Action.runIn_bind, hremove, hsame]
      rcases (remove (t.deliver cloud bucket)).runIn world with ⟨failure | u, between⟩
      · rfl
      · exact hrest between

theorem closeAll_prompt (transfers : List Transfer) (files : FileTree) :
    closeAll (transfers.map (·.deliver (prompt cloud) bucket)) files =
      closeAll (transfers.map (·.deliver cloud bucket)) files := by
  simp only [closeAll, List.foldr_map]
  rfl

-- Asking for results does not depend on when the transfers were done.
theorem collect_prompt (cloud : Cloud) (bucket : Text) (job : Job) (transfers : List Transfer)
    (world other : World) :
    ∃ result, (collect job (transfers.map (·.deliver (prompt cloud) bucket))).runIn world =
        (result, world) ∧
      (collect job (transfers.map (·.deliver cloud bucket))).runIn other = (result, other) := by
  rcases faultless_or_faulty cloud bucket transfers with
    hfaultless | ⟨before, t, behind, e, rfl, hbefore, hfault⟩
  · have hprompt : ∀ t ∈ transfers, ((prompt cloud).transfer bucket t.key).fault = none :=
      hfaultless
    exact ⟨.ok (), collect_of_faultless hprompt, collect_of_faultless hfaultless⟩
  · have hprompt : ∀ s ∈ before, ((prompt cloud).transfer bucket s.key).fault = none := hbefore
    exact ⟨_, collect_faulty hprompt hfault job world, collect_faulty hbefore hfault job other⟩

-- A batch that is done before the cancellation ends as if it had been done at once.
theorem ending_of_done (job : Job) (hc : mostWaitsLeft cloud bucket start.ticks transfers < c) :
    (ending job (some (start.ticks + c)) (transfers.map (·.deliver cloud bucket))).runIn start =
      retimed (start.ticks + mostWaitsLeft cloud bucket start.ticks transfers)
        ((ending job none (transfers.map (·.deliver (prompt cloud) bucket))).runIn start) := by
  have hdone : ∀ t ∈ transfers, (cloud.transfer bucket t.key).readyAfter ≤
      start.ticks + mostWaitsLeft cloud bucket start.ticks transfers :=
    fun t ht => waitsLeft_le_iff.mp (mostWaitsLeft_le_iff.mp le_rfl t ht)
  generalize hn : start.ticks + mostWaitsLeft cloud bucket start.ticks transfers = n at hdone ⊢
  obtain ⟨result, hprompt, hlater⟩ := collect_prompt cloud bucket job transfers start
    { start with ticks := n }
  rw [ending, ending, Action.runIn_andFinally, Action.runIn_andFinally, Action.runIn_onFailure,
    Action.runIn_onFailure, finish_of_done job hc, finish_of_uncancelled, hn, hprompt, hlater]
  cases result with
  | ok u => simp only [retimed, closeAll_prompt]
  | error failure =>
    have hdiscard := discard_prompt hdone start
    rcases hrun : (discard (transfers.map (·.deliver (prompt cloud) bucket))).runIn start with
      ⟨other | u, cleared⟩
    · simp only [hdiscard, hrun, retimed, closeAll_prompt]
    · simp only [hdiscard, hrun, retimed, closeAll_prompt]

end Prompt

/-! ## 3. Fetches that may be cancelled -/

-- The result of a transfer is not reported as a cancellation.
theorem reported_ne_cancelled (job : Job) (key : Text) (e : ServiceError) :
    job.reported (.completion key) (.service e) ≠ .error (cancelledError job) := by
  by_cases he : e = .interrupted
  · subst he
    exact fun heq => by cases heq
  · rw [reported_completion he]
    intro heq
    have htopic := congrArg Error.topic (Failure.error.inj heq)
    simp [transferError, keyError, cancelledError, Error.about] at htopic

section Cancelling

variable {cloud : Cloud} {factory : Factory} {job : Job} {world between : World}
  {mapping : Mapping} {c : Nat}

theorem Queued.promptly (h : Queued cloud factory job world mapping between) :
    Queued (prompt cloud) factory job world mapping between where
  opened := h.opened
  apart := h.apart
  connects := h.connects
  accepted := h.accepted

theorem Queued.sending_prompt (h : Queued cloud factory job world mapping between) :
    sending (prompt cloud) factory job mapping between =
      sending cloud factory job mapping between :=
  submit_prompt h.accepted _

-- A fetch that nothing cancels does not say that it was cancelled.
theorem Queued.fetch_ne_cancelled (h : Queued cloud factory job world mapping between)
    (hne : mapping.transfers ≠ []) :
    ((fetch cloud factory none job).runIn world).1 ≠ .error (.error (cancelledError job)) := by
  rw [h.fetch_run hne]
  have hcollect := finish_of_uncancelled job (mapping.sent cloud job.backend.bucket)
    (sending cloud factory job mapping between)
  rcases faultless_or_faulty cloud job.backend.bucket mapping.transfers with
    hfaultless | ⟨before, failing, behind, e, hsplit, hbefore, hfault⟩
  · rw [ending_of_finished (hcollect.trans (collect_of_faultless hfaultless))]
    simp
  · have hresult : ((finish job none (mapping.sent cloud job.backend.bucket) none).runIn
        (sending cloud factory job mapping between)) =
          (.error (job.reported (.completion failing.key) (.service e)),
            sending cloud factory job mapping between) := by
      rw [hcollect, Mapping.sent, hsplit]
      exact collect_faulty hbefore hfault job _
    rw [ending_of_failed (h.sent_opened hne) hresult]
    dsimp only
    intro heq
    split at heq
    · cases heq
    · exact reported_ne_cancelled _ _ _ (Except.error.inj heq)

-- A fetch whose transfers are done before the cancellation ends as if nothing could cancel it.
theorem Queued.fetch_of_done (h : Queued cloud factory job world mapping between)
    (hne : mapping.transfers ≠ [])
    (hc : mostWaitsLeft cloud job.backend.bucket world.ticks mapping.transfers < c) :
    (fetch cloud factory (some (world.ticks + c)) job).runIn world =
      retimed (world.ticks + mostWaitsLeft cloud job.backend.bucket world.ticks mapping.transfers)
        ((fetch (prompt cloud) factory none job).runIn world) := by
  obtain ⟨-, hticks, -⟩ := h.sending_spec hne
  rw [← hticks] at hc ⊢
  rw [h.fetch_run hne, h.promptly.fetch_run hne, h.sending_prompt, Mapping.sent, Mapping.sent,
    ending_of_done job hc]
  rcases hrun : (ending job none (mapping.transfers.map
    (·.deliver (prompt cloud) job.backend.bucket))).runIn
      (sending cloud factory job mapping between) with ⟨failure | u, after⟩
  · rw [hrun]
    rfl
  · rw [hrun]
    rfl

-- A fetch that is cancelled says so and keeps the files of the transfers that succeeded by then,
-- unless one that was done by then interrupts the program.
theorem Queued.fetch_of_cancelled (h : Queued cloud factory job world mapping between)
    (hne : mapping.transfers ≠ []) (hc : 0 < c)
    (hlate : c ≤ mostWaitsLeft cloud job.backend.bucket world.ticks mapping.transfers) :
    let run := (fetch cloud factory (some (world.ticks + c)) job).runIn world
    let done (t : Transfer) := waitsLeft cloud job.backend.bucket world.ticks t ≤ c
    let fault (t : Transfer) := (cloud.transfer job.backend.bucket t.key).fault
    run.2.ticks = world.ticks + c ∧
      ((∃ t ∈ mapping.transfers, done t ∧ fault t = some .interrupted) →
        run.1 = .error .interrupted) ∧
      ((∀ t ∈ mapping.transfers, done t → fault t ≠ some .interrupted) →
        run.1 = .error (.error (cancelledError job)) ∧ ∀ t ∈ mapping.transfers,
          (run.2.files.pathExists (job.localPath t.key) = true ↔ done t ∧ fault t = none)) := by
  intro run done fault
  obtain ⟨-, hticks, -⟩ := h.sending_spec hne
  rw [← hticks] at hlate
  have hfinish := finish_of_cancelled job hc hlate
  rw [hticks] at hfinish
  have hopened : ∀ s ∈ mapping.sent cloud job.backend.bucket,
      Opened { sending cloud factory job mapping between with
        ticks := world.ticks + c }.files s := h.sent_opened hne
  have hrun := h.fetch_run hne (some (world.ticks + c))
  rw [ending_of_failed hopened hfinish] at hrun
  have hverdict (t : Transfer) :
      (t.deliver cloud job.backend.bucket).verdict (world.ticks + c) = .interrupted ↔
        done t ∧ fault t = some .interrupted := by
    rw [verdict_deliver_interrupted_iff, ← waitsLeft_le_iff]
  have hticked := (discard_quiet (mapping.sent cloud job.backend.bucket)
    { sending cloud factory job mapping between with ticks := world.ticks + c }).2
  have hrun' : run = _ := hrun
  refine ⟨?_, fun hinterrupted => ?_, fun hquiet => ?_⟩
  · rw [hrun']
    exact hticked
  · -- The interruption ends the clean-up and takes the place of the cancellation.
    obtain ⟨t, ht, hdone⟩ := hinterrupted
    rw [hrun', if_pos ⟨_, List.mem_map_of_mem ht, (hverdict t).mpr hdone⟩]
  · have hgoesOn : ∀ s ∈ mapping.sent cloud job.backend.bucket,
        s.verdict (world.ticks + c) ≠ .interrupted := by
      refine List.forall_mem_map.mpr fun t ht hinterrupted => ?_
      obtain ⟨hdone, hfault⟩ := (hverdict t).mp hinterrupted
      exact hquiet t ht hdone hfault
    rw [hrun', if_neg fun ⟨s, hs, hinterrupted⟩ => hgoesOn s hs hinterrupted]
    refine ⟨rfl, fun t ht => ?_⟩
    have hkept := pathExists_discarded hopened h.sent_apart hgoesOn (List.mem_map_of_mem ht)
    rw [← h.path_eq ht]
    refine hkept.trans ?_
    rw [verdict_deliver_succeeded_iff, ← waitsLeft_le_iff]

/-- **A batch is waited for until its last transfer is done or the cancellation comes. It is
reported as cancelled exactly if the cancellation comes no later and no transfer that is done by
then interrupts the program**, and then the files of exactly the transfers that succeeded by then
stay. A batch that is done before the cancellation ends as if nothing could cancel it and all its
transfers had been done at once. -/
theorem cancelled_iff (h : Queued cloud factory job world mapping between)
    (hne : mapping.transfers ≠ []) (hc : 1 ≤ c) :
    let run := (fetch cloud factory (some (world.ticks + c)) job).runIn world
    let left := waitsLeft cloud job.backend.bucket world.ticks
    let most := mostWaitsLeft cloud job.backend.bucket world.ticks mapping.transfers
    let fault (t : Transfer) := (cloud.transfer job.backend.bucket t.key).fault
    run.2.ticks = world.ticks + min c most ∧
      (run.1 = .error (.error (cancelledError job)) ↔
        c ≤ most ∧ ∀ t ∈ mapping.transfers, left t ≤ c → fault t ≠ some .interrupted) ∧
      (run.1 = .error (.error (cancelledError job)) → ∀ t ∈ mapping.transfers,
        (run.2.files.pathExists (job.localPath t.key) = true ↔ left t ≤ c ∧ fault t = none)) ∧
      (most < c → run =
        retimed (world.ticks + most) ((fetch (prompt cloud) factory none job).runIn world)) := by
  intro run left most fault
  by_cases hlate : c ≤ most
  · obtain ⟨hticks, hinterrupted, hquiet⟩ := h.fetch_of_cancelled hne hc hlate
    have hcancelled : run.1 = .error (.error (cancelledError job)) ↔
        ∀ t ∈ mapping.transfers, left t ≤ c → fault t ≠ some .interrupted := by
      refine ⟨fun hresult t ht hdone hfault => ?_, fun hall => (hquiet hall).1⟩
      have hother := hinterrupted ⟨t, ht, hdone, hfault⟩
      rw [hresult] at hother
      cases hother
    refine ⟨?_, ?_, fun hresult => ?_, fun hearly => absurd hlate (Nat.not_le.mpr hearly)⟩
    · rw [Nat.min_eq_left hlate]
      exact hticks
    · rw [hcancelled]
      exact (and_iff_right hlate).symm
    · exact (hquiet (hcancelled.mp hresult)).2
  · have hearly : most < c := Nat.not_le.mp hlate
    have hrun : run = _ := h.fetch_of_done hne hearly
    have hresult : run.1 ≠ .error (.error (cancelledError job)) := by
      rw [hrun]
      exact h.promptly.fetch_ne_cancelled hne
    refine ⟨?_, iff_of_false hresult fun hboth => hlate hboth.1, fun hcancelled => ?_,
      fun _ => hrun⟩
    · rw [hrun, Nat.min_eq_right hearly.le]
      rfl
    · exact absurd hcancelled hresult

end Cancelling

/-- A cloud in which `a` is done at once, `b` after five waits and `c` at once with a fault. -/
def unevenCloud (first : Option ServiceError) : Cloud :=
  endingCloud
    (fun key => if key = "a" then first else if key = "c" then some .noCredentials else none)
    fun key => if key = "b" then 5 else 0

/-- A batch that is cancelled with the first wait keeps what is done and loses what is not done or
has a fault. -/
theorem cancelled_at_first_wait :
    let cloud := unevenCloud none
    let job := sampleJob ["a", "b", "c"] false
    let run := (fetch cloud .standard (some 1) job).runIn sampleWorld
    (∃ mapping between, Queued cloud .standard job sampleWorld mapping between ∧
      mapping.transfers.map (·.key) = ["a", "b", "c"]) ∧
      run.1 = .error (.error (cancelledError job)) ∧ run.2.ticks = 1 ∧
      run.2.files.pathExists "d/b/a" = true ∧ run.2.files.pathExists "d/b/b" = false ∧
      run.2.files.pathExists "d/b/c" = false := by
  intro cloud job
  have hqueued : Queued cloud .standard job sampleWorld sampleQueue _ := queued_sampleQueue _ _
  have hne : sampleQueue.transfers ≠ [] := by simp [sampleQueue]
  have hstart : sampleWorld.ticks + 1 = 1 := rfl
  obtain ⟨hticks, hcancelled, hfiles, -⟩ := cancelled_iff hqueued hne (Nat.le_refl 1)
  rw [hstart] at hticks hcancelled hfiles
  generalize (fetch cloud .standard (some 1) job).runIn sampleWorld = run
    at hticks hcancelled hfiles ⊢
  have hresult : run.1 = .error (.error (cancelledError job)) :=
    hcancelled.mpr (by decide +kernel)
  have hmem := mem_sampleQueue
  have hpath := localPath_sampleQueue
  have hfirst := hfiles hresult _ hmem.1
  have hsecond := hfiles hresult _ hmem.2.1
  have hthird := hfiles hresult _ hmem.2.2
  rw [hpath.1] at hfirst
  rw [hpath.2.1] at hsecond
  rw [hpath.2.2] at hthird
  exact ⟨⟨_, _, hqueued, by decide +kernel⟩, hresult, hticks, hfirst.mpr (by decide +kernel),
    Bool.eq_false_iff.mpr (mt hsecond.mp (by decide +kernel)),
    Bool.eq_false_iff.mpr (mt hthird.mp (by decide +kernel))⟩

/-- **A transfer that interrupts the program keeps a cancelled batch from being reported as such**,
and leaves the files of the transfers that are not done. -/
theorem uncancelled_by_interrupt :
    let cloud := unevenCloud (some .interrupted)
    let job := sampleJob ["a", "b", "c"] false
    let run := (fetch cloud .standard (some 1) job).runIn sampleWorld
    (∃ mapping between, Queued cloud .standard job sampleWorld mapping between ∧
      1 ≤ mostWaitsLeft cloud "b" 0 mapping.transfers) ∧
      run.1 ≠ .error (.error (cancelledError job)) ∧
      run.2.files.pathExists "d/b/b" = true := by
  intro cloud job run
  refine ⟨⟨_, _, queued_sampleQueue _ _, by decide +kernel⟩, ?_, by decide +kernel⟩
  have hresult : run.1 = .error .interrupted := by decide +kernel
  rw [hresult]
  intro heq
  cases heq

end StateOwnership.Fetch
