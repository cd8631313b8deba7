import Mathlib.Data.List.Nodup
import StateOwnership.Proofs.Fetch.Wholeness
import StateOwnership.Proofs.Fetch.Wording

/-!
# Batches that are sent whole

Once the files of a fetch are opened, the client is connected and every transfer is accepted, all
that follows depends on how the transfers end. **If all are done, the fetch succeeds exactly if none
has a fault, and reports the first fault otherwise; the files of the faultless transfers stay, each
with its whole object, and the others are removed.**
-/

namespace StateOwnership.Fetch

/-! ## 1. Queues -/

/-- A fetch has looked at all its keys and queued transfers to different files, its client connects
if there are any, and all of them are accepted. -/
structure Queued (cloud : Cloud) (factory : Factory) (job : Job) (world : World) (mapping : Mapping)
    (between : World) : Prop where
  opened : (mapKeys job .empty job.backend.keys).runIn world = (.ok mapping, between)
  apart : (mapping.transfers.map (·.place)).Nodup
  connects : mapping.transfers ≠ [] → ((connecting cloud factory job).runIn
    (announced job mapping.transfers between)).1.toBool = true
  accepted : ∀ t ∈ mapping.transfers, Accepted cloud job.backend.bucket t

def Mapping.sent (cloud : Cloud) (bucket : Text) (mapping : Mapping) : List Transfer :=
  mapping.transfers.map (·.deliver cloud bucket)

/-- What is answered if all transfers of a queue succeed. -/
def Mapping.outcome (job : Job) (mapping : Mapping) : Outcome :=
  ⟨job.backend.bucket, mapping.filenames, mapping.transfers.map (·.key), mapping.skipped⟩

/-- What the log says if all transfers of a queue succeed. -/
def Mapping.summary (job : Job) (mapping : Mapping) : Log.Record :=
  ⟨Log.debug, Log.fetchSource, "Fetched " ++ job.backend.bucket ++ ": " ++
    Text.ofNat (mapping.transfers.map (·.key)).length ++ " downloaded, " ++
    Text.ofNat mapping.skipped.length ++ " skipped"⟩

/-- The world in which the transfers of a queue are sent. -/
def sending (cloud : Cloud) (factory : Factory) (job : Job) (mapping : Mapping)
    (between : World) : World :=
  ((submit cloud job.backend.bucket mapping.transfers).runIn
    ((connecting cloud factory job).runIn (announced job mapping.transfers between)).2).2

def ending (job : Job) (cancelAt : Option Nat) (sent : List Transfer) : Action Unit :=
  ((finish job cancelAt sent none).onFailure (discard sent)).andFinally (closeAll sent)

section Queues

variable {job : Job} {mapping next : Mapping} {keys : List Text} {world after : World}
  {transfers : List Transfer} {t : Transfer}

-- Transfers are queued in the order of their keys, and for the paths of their copies.
theorem Surveyed.queued (h : Surveyed job keys mapping world next after) :
    ∃ queued, next.transfers = mapping.transfers ++ queued ∧
      (queued.map (·.key)).Sublist keys ∧ ∀ t ∈ queued, t.path = job.localPath t.key := by
  induction h with
  | nil => exact ⟨[], by simp, .slnil, by simp⟩
  | @cons key rest mapping middle final world between after hfirst hrest ih =>
    obtain ⟨queued, hqueued, hkeys, hpaths⟩ := ih
    cases hfirst with
    | passedOver message hmade hthere hkeep => exact ⟨queued, hqueued, hkeys.cons key, hpaths⟩
    | @opened place made hmade hopen hnew =>
      refine ⟨⟨key, job.localPath key, place, none⟩ :: queued, by rw [hqueued]; simp,
        hkeys.cons_cons key, List.forall_mem_cons.mpr ⟨rfl, hpaths⟩⟩

-- Of transfers to different files each stands alone.
theorem alone_of_nodup (h : (transfers.map (·.place)).Nodup) (ht : t ∈ transfers) :
    Alone transfers t := by
  obtain ⟨before, behind, rfl⟩ := List.append_of_mem ht
  refine ⟨before, behind, rfl, fun other hother heq => ?_⟩
  rw [List.map_append, List.map_cons, List.nodup_middle, List.nodup_cons, ← List.map_append] at h
  exact h.1 (heq ▸ List.mem_map_of_mem hother)

end Queues

namespace Queued

variable {cloud : Cloud} {factory : Factory} {job : Job} {world between : World}
  {mapping : Mapping} {t : Transfer}

theorem surveyed (h : Queued cloud factory job world mapping between) :
    Surveyed job job.backend.keys .empty world mapping between :=
  mapKeys_surveyed h.opened

theorem sublist (h : Queued cloud factory job world mapping between) :
    (mapping.transfers.map (·.key)).Sublist job.backend.keys := by
  obtain ⟨queued, hqueued, hkeys, -⟩ := h.surveyed.queued
  rw [hqueued]
  exact hkeys

theorem path_eq (h : Queued cloud factory job world mapping between) (ht : t ∈ mapping.transfers) :
    t.path = job.localPath t.key := by
  obtain ⟨queued, hqueued, -, hpaths⟩ := h.surveyed.queued
  rw [hqueued] at ht
  exact hpaths t ht

-- The queue is sent as a whole.
theorem sending_run (h : Queued cloud factory job world mapping between)
    (hne : mapping.transfers ≠ []) :
    ∃ connection connected, (connecting cloud factory job).runIn
        (announced job mapping.transfers between) = (.ok connection, connected) ∧
      (submit cloud job.backend.bucket mapping.transfers).runIn connected =
        (.ok (mapping.sent cloud job.backend.bucket, none),
          sending cloud factory job mapping between) := by
  have hconnects := h.connects hne
  rcases hconnect : (connecting cloud factory job).runIn
    (announced job mapping.transfers between) with ⟨failure | connection, connected⟩
  · simp [hconnect, Except.toBool] at hconnects
  obtain ⟨after, hsubmit, -⟩ := submit_run cloud job.backend.bucket mapping.transfers connected
  refine ⟨connection, connected, rfl, ?_⟩
  rw [sending, hconnect, hsubmit, sentOf_of_accepted h.accepted, Mapping.sent]

-- A fetch with a queue ends as its transfers do.
theorem fetch_run (h : Queued cloud factory job world mapping between)
    (hne : mapping.transfers ≠ []) (cancelAt : Option Nat) :
    (fetch cloud factory cancelAt job).runIn world =
      match (ending job cancelAt (mapping.sent cloud job.backend.bucket)).runIn
        (sending cloud factory job mapping between) with
      | (.ok _, after) => (.ok (mapping.outcome job), after.record (mapping.summary job))
      | (.error failure, after) => (.error failure, after) := by
  obtain ⟨connection, connected, hconnect, hsubmit⟩ := h.sending_run hne
  have hconnected : ((connecting cloud factory job).onFailure (discard mapping.transfers)).runIn
      (announced job mapping.transfers between) = (.ok connection, connected) := by
    rw [Action.runIn_onFailure, hconnect]
  have hdownload : (download cloud factory job cancelAt mapping.transfers).runIn
      (announced job mapping.transfers between) =
        (ending job cancelAt (mapping.sent cloud job.backend.bucket)).runIn
          (sending cloud factory job mapping between) := by
    unfold download
    rw [Action.runIn_bind]
    unfold connecting at hconnected
    simp only [hconnected, Action.runIn_bind, hsubmit]
    rfl
  unfold announced at hdownload
  simp only [fetch, Action.runIn_bind, h.opened, if_pos hne, Action.runIn_record, hdownload]
  rcases (ending job cancelAt (mapping.sent cloud job.backend.bucket)).runIn
    (sending cloud factory job mapping between) with ⟨failure | u, after⟩ <;> rfl

-- A fetch that passes over all its keys succeeds.
theorem fetch_run_of_nil (h : Queued cloud factory job world mapping between)
    (hnone : mapping.transfers = []) (cancelAt : Option Nat) :
    (fetch cloud factory cancelAt job).runIn world =
      (.ok (mapping.outcome job), between.record (mapping.summary job)) := by
  simp only [fetch, Action.runIn_bind, h.opened, hnone, ne_eq, not_true_eq_false, if_false,
    Action.runIn_record, Action.runIn_pure, Mapping.outcome, Mapping.summary]

/-! ## 2. Files of a queue -/

-- Before a queue is submitted, what has changed is at most a file of the log.
theorem sending_eq (h : Queued cloud factory job world mapping between)
    (hne : mapping.transfers ≠ []) :
    ∃ connected, World.Alike between connected ∧
      (sending cloud factory job mapping between).files =
        submitted cloud job.backend.bucket mapping.transfers connected.files ∧
      (sending cloud factory job mapping between).log = connected.log ∧
      (sending cloud factory job mapping between).ticks = connected.ticks := by
  obtain ⟨connection, connected, hconnect, hsubmit⟩ := h.sending_run hne
  obtain ⟨after, hrun, hafter⟩ :=
    submit_run cloud job.backend.bucket mapping.transfers connected
  have hsame : sending cloud factory job mapping between = after :=
    congrArg Prod.snd (hsubmit.symm.trans hrun)
  exact ⟨connected, connecting_alike hconnect, hsame ▸ hafter⟩

-- Sending a queue changes contents alone, and waits for nothing.
theorem sending_spec (h : Queued cloud factory job world mapping between)
    (hne : mapping.transfers ≠ []) :
    (sending cloud factory job mapping between).log = world.log ∧
      (sending cloud factory job mapping between).ticks = world.ticks ∧
      ∀ t ∈ mapping.transfers,
        Opened (sending cloud factory job mapping between).files
          (t.deliver cloud job.backend.bucket) := by
  obtain ⟨connected, halike, hfiles, hlog, hticks⟩ := h.sending_eq hne
  have hsurveyed := h.surveyed
  have hopened := hsurveyed.opened (by simp [Mapping.empty])
  have hsent := opened_sentOf cloud job.backend.bucket
    fun t ht => (hopened t ht).1.kept halike.kept
  refine ⟨hlog.trans (halike.log_eq.trans hsurveyed.log_eq.1),
    hticks.trans (halike.ticks_eq.trans hsurveyed.log_eq.2), fun t ht => ?_⟩
  rw [hfiles]
  refine hsent _ ?_
  rw [sentOf_of_accepted h.accepted]
  exact List.mem_map_of_mem ht

-- A file of a queue holds what is written at once when the queue is sent.
theorem get?_sending (h : Queued cloud factory job world mapping between)
    (hroot : world.files.Rooted) (ht : t ∈ mapping.transfers)
    (hlog : t.place ∉ world.log.places) :
    (sending cloud factory job mapping between).files.get? t.place = some (.file
      (FileTree.overlaid (writtenAtOnce (cloud.transfer job.backend.bucket t.key).body) [])) := by
  have hne : mapping.transfers ≠ [] := List.ne_nil_of_mem ht
  obtain ⟨connected, halike, hfiles, -⟩ := h.sending_eq hne
  have hsurveyed := h.surveyed
  have halone : mapping.transfers.filter (·.place = t.place) = [t] :=
    alone_iff.mp (alone_of_nodup h.apart ht)
  have hempty : connected.files.get? t.place = some (.file []) := by
    rw [halike.files.get?_eq _ (by rwa [hsurveyed.log_eq.1])]
    refine hsurveyed.empty_of_opened hroot hlog ?_
    simp [Mapping.openedAt, halone]
  rw [hfiles, get?_submitted cloud job.backend.bucket
    (by rw [sentOf_of_accepted h.accepted]), halone, hempty]
  rfl

end Queued

/-! ## 3. The end of a batch -/

section Ending

variable {cloud : Cloud} {job : Job} {cancelAt : Option Nat} {sent : List Transfer} {s : Transfer}
  {start waited world : World} {failure : Failure}

theorem ending_of_finished
    (h : (finish job cancelAt sent none).runIn start = (.ok (), waited)) :
    (ending job cancelAt sent).runIn start =
      (.ok (), { waited with files := closeAll sent waited.files }) := by
  rw [ending, Action.runIn_andFinally, Action.runIn_onFailure, h]

-- A batch that does not end well fails as it ended, unless an interruption ends the clean-up.
theorem ending_of_failed (hopened : ∀ s ∈ sent, Opened waited.files s)
    (h : (finish job cancelAt sent none).runIn start = (.error failure, waited)) :
    (ending job cancelAt sent).runIn start =
      (.error (if ∃ s ∈ sent, s.verdict waited.ticks = .interrupted then .interrupted else failure),
        { ((discard sent).runIn waited).2 with
          files := closeAll sent ((discard sent).runIn waited).2.files }) := by
  have hdiscard := discard_result (fun s hs => (hopened s hs).check_eq) waited
  rw [ending, Action.runIn_andFinally, Action.runIn_onFailure, h]
  rcases hrun : (discard sent).runIn waited with ⟨result, cleared⟩
  rw [hrun] at hdiscard
  have hresult : result = _ := hdiscard
  by_cases hinterrupted : ∃ s ∈ sent, s.verdict waited.ticks = .interrupted
  · rw [if_pos hinterrupted] at hresult
    subst hresult
    simp only [hrun, if_pos hinterrupted]
  · rw [if_neg hinterrupted] at hresult
    subst hresult
    simp only [hrun, if_neg hinterrupted]

-- Where nothing interrupts the clean-up, the files of the transfers that succeeded are those that
-- are still there.
theorem pathExists_discarded (hopened : ∀ s ∈ sent, Opened waited.files s)
    (hapart : (sent.map (·.place)).Nodup)
    (hgoesOn : ∀ s ∈ sent, s.verdict waited.ticks ≠ .interrupted) (hs : s ∈ sent) :
    (closeAll sent ((discard sent).runIn waited).2.files).pathExists s.path = true ↔
      s.verdict waited.ticks = .succeeded := by
  have hcleared := (discard_run hopened (.of_kinds rfl fun _ => rfl)).trans
    (.of_kinds (closeAll_kept sent _).1 (closeAll_kept sent _).2)
  rw [List.nil_append, List.append_nil, cleaned_of_uninterrupted hgoesOn] at hcleared
  rw [(hopened s hs).pathExists_iff hcleared, List.mem_map, not_exists]
  constructor
  · intro hkept
    by_contra hverdict
    exact hkept s ⟨List.mem_filter.mpr ⟨hs, by simpa using hverdict⟩, rfl⟩
  · rintro hverdict other ⟨hother, hplace⟩
    obtain ⟨hmem, hfailed⟩ := List.mem_filter.mp hother
    obtain rfl := List.inj_on_of_nodup_map hapart hmem hs hplace
    simp [hverdict] at hfailed

-- A path whose file was opened reads what the file holds, if it still leads somewhere.
theorem Opened.read_eq {files after : FileTree} {body : Bytes} (h : Opened files s)
    (hstart : after.start = files.start) (hthere : after.pathExists s.path = true)
    (hget : after.get? s.place = some (.file body)) : after.read s.path = .ok body := by
  obtain ⟨hcheck, found, hlocate⟩ := FileTree.pathExists_ok hthere
  have hfound : found = s.place := by
    rw [(FileTree.locate_ok hlocate).1, hstart, h.target_eq]
  exact (FileTree.read_iff hcheck (hfound ▸ hlocate)).mpr hget

-- Without a cancellation a batch ends as asking for its results does.
theorem finish_of_uncancelled (job : Job) (sent : List Transfer) (start : World) :
    (finish job none sent none).runIn start = (collect job sent).runIn start := by
  simp only [finish, await, Action.runIn_bind, Action.runIn_pure]

-- The first fault is reported, and nothing changes.
theorem collect_faulty {bucket : Text} {before behind : List Transfer} {failing : Transfer}
    {e : ServiceError} (hbefore : ∀ t ∈ before, (cloud.transfer bucket t.key).fault = none)
    (hfault : (cloud.transfer bucket failing.key).fault = some e) (job : Job) (start : World) :
    (collect job ((before ++ failing :: behind).map (·.deliver cloud bucket))).runIn start =
      (.error (job.reported (.completion failing.key) (.service e)), start) :=
  Prod.ext (collect_of_faulty hbefore hfault) (collect_run _ _ _)

end Ending

namespace Queued

variable {cloud : Cloud} {factory : Factory} {job : Job} {world between waited : World}
  {mapping : Mapping} {t : Transfer}

theorem sent_apart (h : Queued cloud factory job world mapping between) :
    ((mapping.sent cloud job.backend.bucket).map (·.place)).Nodup := by
  rw [Mapping.sent, List.map_map]
  exact h.apart

theorem sent_opened (h : Queued cloud factory job world mapping between)
    (hne : mapping.transfers ≠ []) :
    ∀ s ∈ mapping.sent cloud job.backend.bucket,
      Opened (sending cloud factory job mapping between).files s :=
  List.forall_mem_map.mpr (h.sending_spec hne).2.2

-- What is written at once and what is kept back make the whole body.
theorem overlaid_keptBack (body : Bytes) :
    FileTree.overlaid (keptBack body) (FileTree.overlaid (writtenAtOnce body) []) = body :=
  layered_singleton body

-- If a queue ends well, every file of it holds the whole body.
theorem closed (h : Queued cloud factory job world mapping between) (hroot : world.files.Rooted)
    (ht : t ∈ mapping.transfers) :
    let files := closeAll (mapping.sent cloud job.backend.bucket)
      (sending cloud factory job mapping between).files
    Path.check (job.localPath t.key) = .ok () ∧ files.locate (job.localPath t.key) = .ok t.place ∧
      (t.place ∉ world.log.places → files.read (job.localPath t.key) =
        .ok (cloud.transfer job.backend.bucket t.key).body) := by
  intro files
  have hne : mapping.transfers ≠ [] := List.ne_nil_of_mem ht
  have hmem : t.deliver cloud job.backend.bucket ∈ mapping.sent cloud job.backend.bucket :=
    List.mem_map_of_mem ht
  have hopened := h.sent_opened hne _ hmem
  have hkept := closeAll_kept (mapping.sent cloud job.backend.bucket)
    (sending cloud factory job mapping between).files
  have hstill := hopened.kept (.of_kinds hkept.1 hkept.2)
  rw [← h.path_eq ht]
  refine ⟨hstill.check_eq, hstill.locate_eq, fun hlog => ?_⟩
  refine (FileTree.read_iff hstill.check_eq hstill.locate_eq).mpr ?_
  have hclosed := (alone_of_nodup h.sent_apart hmem).get?_closeAll rfl
    (sending cloud factory job mapping between).files
  refine hclosed.trans ?_
  rw [show (t.deliver cloud job.backend.bucket).place = t.place from rfl,
    h.get?_sending hroot ht hlog]
  exact congrArg (some ∘ FileTree.Entry.file) (overlaid_keptBack _)

-- If a queue does not end well and nothing interrupts its clean-up, the files of the transfers that
-- succeeded stay, and hold the whole body.
theorem discarded (h : Queued cloud factory job world mapping between)
    (hroot : world.files.Rooted)
    (hfiles : waited.files = (sending cloud factory job mapping between).files)
    (hlogs : waited.log = (sending cloud factory job mapping between).log)
    (hgoesOn : ∀ s ∈ mapping.sent cloud job.backend.bucket,
      s.verdict waited.ticks ≠ .interrupted) (ht : t ∈ mapping.transfers) :
    let files := closeAll (mapping.sent cloud job.backend.bucket)
      ((discard (mapping.sent cloud job.backend.bucket)).runIn waited).2.files
    let verdict := (t.deliver cloud job.backend.bucket).verdict waited.ticks
    (files.pathExists (job.localPath t.key) = true ↔ verdict = .succeeded) ∧
      (t.place ∉ world.log.places → verdict = .succeeded → files.read (job.localPath t.key) =
        .ok (cloud.transfer job.backend.bucket t.key).body) := by
  intro files verdict
  have hne : mapping.transfers ≠ [] := List.ne_nil_of_mem ht
  have hmem : t.deliver cloud job.backend.bucket ∈ mapping.sent cloud job.backend.bucket :=
    List.mem_map_of_mem ht
  have hopened := h.sent_opened hne
  rw [← hfiles] at hopened
  have hexists : files.pathExists t.path = true ↔ verdict = .succeeded :=
    pathExists_discarded hopened h.sent_apart hgoesOn hmem
  rw [← h.path_eq ht]
  refine ⟨hexists, fun hlog hverdict => ?_⟩
  have hstart : files.start = waited.files.start :=
    (closeAll_kept _ _).1.trans (discard_run hopened (.of_kinds rfl fun _ => rfl)).start_eq
  refine (hopened _ hmem).read_eq hstart (hexists.mpr hverdict) ?_
  have hkept := (alone_of_nodup h.sent_apart hmem).get?_kept hopened hgoesOn
    (by rw [hlogs, (h.sending_spec hne).1]; exact hlog) rfl hverdict
  refine hkept.trans ?_
  rw [show (t.deliver cloud job.backend.bucket).place = t.place from rfl, hfiles,
    h.get?_sending hroot ht hlog]
  exact congrArg (some ∘ FileTree.Entry.file) (overlaid_keptBack _)

end Queued

/-! ## 4. Batches whose transfers are done -/

section Delivering

variable {cloud : Cloud} {factory : Factory} {job : Job} {world between : World}
  {mapping : Mapping}

-- A fault that does not interrupt the program is reported with the key of its transfer.
theorem reported_completion {key : Text} {e : ServiceError} (h : e ≠ .interrupted) :
    job.reported (.completion key) (.service e) = .error (transferError job key e) := by
  cases e with
  | interrupted => exact absurd rfl h
  | _ => rfl

-- A queue without faults whose transfers are done is delivered.
theorem Queued.fetch_of_faultless (h : Queued cloud factory job world mapping between)
    (hroot : world.files.Rooted)
    (hfaultless : ∀ t ∈ mapping.transfers, (cloud.transfer job.backend.bucket t.key).fault = none) :
    ∃ after, (fetch cloud factory none job).runIn world = (.ok (mapping.outcome job), after) ∧
      ∀ t ∈ mapping.transfers, after.files.pathExists (job.localPath t.key) = true ∧
        (t.place ∉ world.log.places → after.files.read (job.localPath t.key) =
          .ok (cloud.transfer job.backend.bucket t.key).body) := by
  by_cases hnone : mapping.transfers = []
  · exact ⟨_, h.fetch_run_of_nil hnone none, by simp [hnone]⟩
  have hcollect := (finish_of_uncancelled job (mapping.sent cloud job.backend.bucket)
    (sending cloud factory job mapping between)).trans (collect_of_faultless hfaultless)
  have hrun := h.fetch_run hnone none
  rw [ending_of_finished hcollect] at hrun
  refine ⟨_, hrun, fun t ht => ?_⟩
  obtain ⟨hcheck, hlocate, hread⟩ := h.closed hroot ht
  -- The last line of the log goes to no file of the queue.
  have halike := World.Alike.record { sending cloud factory job mapping between with
    files := closeAll (mapping.sent cloud job.backend.bucket)
      (sending cloud factory job mapping between).files } (mapping.summary job)
  refine ⟨FileTree.pathExists_of_locate hcheck (halike.kept.locate hlocate), fun hlog => ?_⟩
  rw [FileTree.read_of_rewritten halike.files, hread hlog]
  intro loc hloc
  obtain rfl := Except.ok.inj (hlocate.symm.trans hloc)
  show t.place ∉ (sending cloud factory job mapping between).log.places
  rwa [(h.sending_spec hnone).1]

-- Of a queue whose transfers are done the first fault is reported, and what has none stays.
theorem Queued.fetch_of_faulty (h : Queued cloud factory job world mapping between)
    (hroot : world.files.Rooted)
    (hdone : ∀ t ∈ mapping.transfers,
      (cloud.transfer job.backend.bucket t.key).readyAfter ≤ world.ticks)
    (hgoesOn : ∀ t ∈ mapping.transfers,
      (cloud.transfer job.backend.bucket t.key).fault ≠ some .interrupted)
    {before behind : List Transfer} {failing : Transfer} {e : ServiceError}
    (hsplit : mapping.transfers = before ++ failing :: behind)
    (hbefore : ∀ s ∈ before, (cloud.transfer job.backend.bucket s.key).fault = none)
    (hfault : (cloud.transfer job.backend.bucket failing.key).fault = some e) :
    ∃ after, (fetch cloud factory none job).runIn world =
        (.error (.error (transferError job failing.key e)), after) ∧
      ∀ t ∈ mapping.transfers, (after.files.pathExists (job.localPath t.key) = true ↔
          (cloud.transfer job.backend.bucket t.key).fault = none) ∧
        (t.place ∉ world.log.places → (cloud.transfer job.backend.bucket t.key).fault = none →
          after.files.read (job.localPath t.key) =
            .ok (cloud.transfer job.backend.bucket t.key).body) := by
  have hne : mapping.transfers ≠ [] := by simp [hsplit]
  have hinside : failing ∈ mapping.transfers := by simp [hsplit]
  have he : e ≠ .interrupted := fun heq => hgoesOn failing hinside (heq ▸ hfault)
  obtain ⟨-, hticks, -⟩ := h.sending_spec hne
  have hopened := h.sent_opened hne
  have hcollect : (finish job none (mapping.sent cloud job.backend.bucket) none).runIn
      (sending cloud factory job mapping between) =
        (.error (.error (transferError job failing.key e)),
          sending cloud factory job mapping between) := by
    rw [finish_of_uncancelled, ← reported_completion he, Mapping.sent, hsplit]
    exact collect_faulty hbefore hfault job _
  have hquiet : ∀ s ∈ mapping.sent cloud job.backend.bucket,
      s.verdict (sending cloud factory job mapping between).ticks ≠ .interrupted := by
    refine List.forall_mem_map.mpr fun t ht hverdict => ?_
    exact hgoesOn t ht (verdict_deliver_interrupted_iff.mp hverdict).2
  have hrun := h.fetch_run hne none
  rw [ending_of_failed hopened hcollect, if_neg fun ⟨s, hs, hverdict⟩ => hquiet s hs hverdict]
    at hrun
  refine ⟨_, hrun, fun t ht => ?_⟩
  have hkept := h.discarded hroot rfl rfl hquiet ht
  simp only [verdict_deliver_succeeded_iff, hticks, hdone t ht, true_and] at hkept
  exact hkept

/-- **If all transfers of a queue are done and none of them interrupts the program, a fetch succeeds
exactly if none of them has a fault**, and then tells their keys in order. Otherwise it reports the
first fault in the order of the keys. In either case the files of exactly the faultless transfers
are there, each with its whole object unless it is also a file of the log. -/
theorem delivered_iff {content : (bucket key : Text) → Bytes}
    (h : Queued cloud factory job world mapping between) (hroot : world.files.Rooted)
    (hdone : ∀ t ∈ mapping.transfers,
      (cloud.transfer job.backend.bucket t.key).readyAfter ≤ world.ticks)
    (hgoesOn : ∀ t ∈ mapping.transfers,
      (cloud.transfer job.backend.bucket t.key).fault ≠ some .interrupted)
    (hwhole : ∀ t ∈ mapping.transfers, (cloud.transfer job.backend.bucket t.key).fault = none →
      (cloud.transfer job.backend.bucket t.key).body = content job.backend.bucket t.key) :
    let run := (fetch cloud factory none job).runIn world
    let fault (t : Transfer) := (cloud.transfer job.backend.bucket t.key).fault
    (run.1.toBool = true ↔ ∀ t ∈ mapping.transfers, fault t = none) ∧
      (mapping.transfers.map (·.key)).Sublist job.backend.keys ∧
      (∀ outcome, run.1 = .ok outcome → outcome.downloaded = mapping.transfers.map (·.key)) ∧
      (∀ failure, run.1 = .error failure → ∃ before t behind e,
        mapping.transfers = before ++ t :: behind ∧ (∀ s ∈ before, fault s = none) ∧
          fault t = some e ∧ failure = .error (transferError job t.key e)) ∧
      ∀ t ∈ mapping.transfers,
        (run.2.files.pathExists (job.localPath t.key) = true ↔ fault t = none) ∧
        (t.place ∉ world.log.places → fault t = none →
          run.2.files.read (job.localPath t.key) = .ok (content job.backend.bucket t.key)) := by
  intro run fault
  rcases faultless_or_faulty cloud job.backend.bucket mapping.transfers with
    hfaultless | ⟨before, failing, behind, e, hsplit, hbefore, hfault⟩
  · obtain ⟨after, hrun, hfiles⟩ := h.fetch_of_faultless hroot hfaultless
    have hrun : run = (.ok (mapping.outcome job), after) := hrun
    rw [hrun]
    refine ⟨iff_of_true rfl hfaultless, h.sublist, ?_, by simp, fun t ht => ?_⟩
    · rintro outcome houtcome
      rw [← Except.ok.inj houtcome]
      rfl
    · obtain ⟨hthere, hread⟩ := hfiles t ht
      refine ⟨iff_of_true hthere (hfaultless t ht), fun hlog hnone => ?_⟩
      rw [hread hlog, hwhole t ht hnone]
  · obtain ⟨after, hrun, hfiles⟩ := h.fetch_of_faulty hroot hdone hgoesOn hsplit hbefore hfault
    have hrun : run = (.error (.error (transferError job failing.key e)), after) := hrun
    have hfails : ¬ ∀ t ∈ mapping.transfers, fault t = none := by
      intro hall
      have hnone := hall failing (by simp [hsplit])
      rw [show fault failing = some e from hfault] at hnone
      simp at hnone
    rw [hrun]
    refine ⟨iff_of_false (by simp [Except.toBool]) hfails, h.sublist, by simp, ?_, fun t ht => ?_⟩
    · intro failure hfailure
      exact ⟨before, failing, behind, e, hsplit, hbefore, hfault, (Except.error.inj hfailure).symm⟩
    · obtain ⟨hthere, hread⟩ := hfiles t ht
      refine ⟨hthere, fun hlog hnone => ?_⟩
      rw [hread hlog hnone, hwhole t ht hnone]

end Delivering

/-- A cloud in which every object spells its key and is done after some waits, with a fault or
without. -/
def endingCloud (fault : Text → Option ServiceError) (readyAfter : Text → Nat) : Cloud :=
  { spellingCloud with
    transfer := fun _ key =>
      ⟨key.map fun c => UInt8.ofNat c.val, fault key, false, readyAfter key⟩ }

def sampleQueue : Mapping :=
  let transfer (key : Text) : Transfer :=
    ⟨key, "d/b/" ++ key, Path.target ["w"] ("d/b/" ++ key), none⟩
  ⟨(sampleJob ["a", "b", "c"] false).filenames, [], [transfer "a", transfer "b", transfer "c"]⟩

theorem queued_sampleQueue (fault : Text → Option ServiceError) (readyAfter : Text → Nat) :
    Queued (endingCloud fault readyAfter) .standard (sampleJob ["a", "b", "c"] false) sampleWorld
      sampleQueue ((mapKeys (sampleJob ["a", "b", "c"] false) .empty ["a", "b", "c"]).runIn
        sampleWorld).2 where
  opened := Prod.ext (by decide +kernel) rfl
  apart := by decide +kernel
  connects _ := by rfl
  accepted _ _ hsubmission := by cases hsubmission

theorem mem_sampleQueue :
    (⟨"a", "d/b/a", ["w", "d", "b", "a"], none⟩ : Transfer) ∈ sampleQueue.transfers ∧
      (⟨"b", "d/b/b", ["w", "d", "b", "b"], none⟩ : Transfer) ∈ sampleQueue.transfers ∧
      (⟨"c", "d/b/c", ["w", "d", "b", "c"], none⟩ : Transfer) ∈ sampleQueue.transfers := by
  decide +kernel

theorem localPath_sampleQueue :
    let job := sampleJob ["a", "b", "c"] false
    job.localPath "a" = "d/b/a" ∧ job.localPath "b" = "d/b/b" ∧ job.localPath "c" = "d/b/c" := by
  decide +kernel

/-- Of three objects the second is missing: that is reported, and the first and the third stay. -/
theorem delivered_without_second :
    let missing : ServiceError := .refused "404" "HeadObject" "Not Found"
    let cloud := endingCloud (fun key => if key = "b" then some missing else none) fun _ => 0
    let job := sampleJob ["a", "b", "c"] false
    let run := (fetch cloud .standard none job).runIn sampleWorld
    (∃ mapping between, Queued cloud .standard job sampleWorld mapping between ∧
      mapping.transfers.map (·.key) = ["a", "b", "c"]) ∧
      run.1.toBool = false ∧ run.2.files.read "d/b/a" = .ok [0x61] ∧
      run.2.files.pathExists "d/b/b" = false ∧ run.2.files.read "d/b/c" = .ok [0x63] := by
  intro missing cloud job
  have hqueued : Queued cloud .standard job sampleWorld sampleQueue _ := queued_sampleQueue _ _
  have hwhole : ∀ t ∈ sampleQueue.transfers,
      (cloud.transfer job.backend.bucket t.key).fault = none →
        (cloud.transfer job.backend.bucket t.key).body = (spellingCloud.transfer "b" t.key).body :=
    fun _ _ _ => rfl
  obtain ⟨hok, -, -, -, hfiles⟩ := @delivered_iff _ _ _ _ _ _
    (fun bucket key => (spellingCloud.transfer bucket key).body) hqueued rooted_sampleWorld
    (by decide +kernel) (by decide +kernel) hwhole
  generalize (fetch cloud .standard none job).runIn sampleWorld = run at hok hfiles ⊢
  have hfault : (cloud.transfer "b" "a").fault = none ∧ (cloud.transfer "b" "b").fault ≠ none ∧
      (cloud.transfer "b" "c").fault = none := by decide +kernel
  have hbody : (spellingCloud.transfer "b" "a").body = [0x61] ∧
      (spellingCloud.transfer "b" "c").body = [0x63] := by decide +kernel
  have hmem := mem_sampleQueue
  have hpath := localPath_sampleQueue
  have hfirst := (hfiles _ hmem.1).2 List.not_mem_nil hfault.1
  have hsecond := (hfiles _ hmem.2.1).1
  have hthird := (hfiles _ hmem.2.2).2 List.not_mem_nil hfault.2.2
  rw [hpath.1] at hfirst
  rw [hpath.2.1] at hsecond
  rw [hpath.2.2] at hthird
  have hfails : run.1.toBool = false :=
    Bool.eq_false_iff.mpr fun h => hfault.2.1 (hok.mp h _ hmem.2.1)
  have hgone : run.2.files.pathExists "d/b/b" = false :=
    Bool.eq_false_iff.mpr fun h => hfault.2.1 (hsecond.mp h)
  exact ⟨⟨_, _, hqueued, by decide +kernel⟩, hfails, hfirst.trans (congrArg Except.ok hbody.1),
    hgone, hthird.trans (congrArg Except.ok hbody.2)⟩

end StateOwnership.Fetch
