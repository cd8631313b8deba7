import StateOwnership.Proofs.Fetch.Looking
import StateOwnership.Proofs.World.Establishing

/-!
# Failures that are put into words

A fetch meets the file tree at every key and the services on the way to its objects, at the submission
of every transfer and at its end. **What fails first decides how a fetch fails.** It is in the
library's own words and names the bucket, unless it fails at a submission, or it is a kind of failure
that the client lets through, or an interruption ends the clean-up.
-/

namespace StateOwnership.Fetch

/-! ## 1. Where a fetch can fail -/

inductive Stage where
  | directory (key : Text)
  | opening (key : Text)
  | connecting (stage : Client.Stage)
  | submission (key : Text)
  | waiting
  | completion (key : Text)
  deriving DecidableEq, Repr

def Accepted (cloud : Cloud) (bucket : Text) (t : Transfer) : Prop :=
  (cloud.transfer bucket t.key).atSubmission = true → (cloud.transfer bucket t.key).fault = none

/-- Transfers come to be submitted: no key fails, their files are opened, and the client of the
backend connects. -/
structure Ready (cloud : Cloud) (job : Job) (world : World) (transfers : List Transfer) :
    Prop where
  left_eq : (survey job .empty world job.backend.keys).left = []
  transfers_eq : (survey job .empty world job.backend.keys).mapping.transfers = transfers
  ne_nil : transfers ≠ []
  connects : ∃ session, (Client.ofBackend job.backend).Opens cloud session ∧
    cloud.connection ⟨.s3, session⟩ = none

/-- What fails first in a fetch, and where. -/
inductive Raised (cloud : Cloud) (cancelAt : Option Nat) (job : Job) (world : World) :
    Stage → Failure → Prop where
  | directory {key : Text} {rest : List Text} {fault : FileTree.Fault}
      (hleft : (survey job .empty world job.backend.keys).left = key :: rest)
      (hmake : ((survey job .empty world job.backend.keys).world.files.makeDirectories
        (job.localCopy key).directory).1 = .error fault) :
      Raised cloud cancelAt job world (.directory key) (.ofFileTree fault)
  | opening {key : Text} {rest : List Text} {fault : FileTree.Fault}
      (hleft : (survey job .empty world job.backend.keys).left = key :: rest)
      (hmake : ((survey job .empty world job.backend.keys).world.files.makeDirectories
        (job.localCopy key).directory).1 = .ok ())
      (hopen : (begun job key (survey job .empty world job.backend.keys).world).files.openFile
        (job.localPath key) true = .error fault) :
      Raised cloud cancelAt job world (.opening key) (.ofFileTree fault)
  | connecting {stage : Client.Stage} {e : ServiceError}
      (hleft : (survey job .empty world job.backend.keys).left = [])
      (hopened : (survey job .empty world job.backend.keys).mapping.transfers ≠ [])
      (hdenied : (Client.ofBackend job.backend).Denied cloud .s3 stage e) :
      Raised cloud cancelAt job world (.connecting stage) (.service e)
  | submission {before behind : List Transfer} {t : Transfer} {e : ServiceError}
      (hready : Ready cloud job world (before ++ t :: behind))
      (hbefore : ∀ s ∈ before, Accepted cloud job.backend.bucket s)
      (hsubmission : (cloud.transfer job.backend.bucket t.key).atSubmission = true)
      (hfault : (cloud.transfer job.backend.bucket t.key).fault = some e) :
      Raised cloud cancelAt job world (.submission t.key) (.service e)
  | waiting {transfers : List Transfer} {limit : Nat} (hready : Ready cloud job world transfers)
      (haccepted : ∀ t ∈ transfers, Accepted cloud job.backend.bucket t)
      (hcancel : cancelAt = some limit)
      (hearly : (waits limit (transfers.map (·.deliver cloud job.backend.bucket))
        world.ticks).1 = false) :
      Raised cloud cancelAt job world .waiting (.error (cancelledError job))
  | completion {before behind : List Transfer} {t : Transfer} {e : ServiceError}
      (hready : Ready cloud job world (before ++ t :: behind))
      (haccepted : ∀ s ∈ before ++ t :: behind, Accepted cloud job.backend.bucket s)
      (hwaited : ∀ limit ∈ cancelAt, (waits limit
        ((before ++ t :: behind).map (·.deliver cloud job.backend.bucket)) world.ticks).1 = true)
      (hbefore : ∀ s ∈ before, (cloud.transfer job.backend.bucket s.key).fault = none)
      (hfault : (cloud.transfer job.backend.bucket t.key).fault = some e) :
      Raised cloud cancelAt job world (.completion t.key) (.service e)

def Job.reported (job : Job) : Stage → Failure → Failure
  | .directory key, .refused refusal =>
    .error (directoryError job key (job.localCopy key).directory refusal)
  | .opening key, .refused refusal => .error (openError job key (job.localPath key) refusal)
  | .connecting stage, .service e =>
    withBucket "Unable to connect to" job.backend.bucket
      ((Client.ofBackend job.backend).reported .s3 stage e)
  | .completion _, .service .interrupted => .interrupted
  | .completion key, .service e => .error (transferError job key e)
  | _, failure => failure

/-! ## 2. Keys -/

section Keys

variable {job : Job} {mapping : Mapping} {keys rest : List Text} {key : Text} {world : World}
  {failure : Failure}

-- Looking at keys ends with the first that is left, or with the mapping of all of them.
theorem mapKeys_survey (job : Job) (mapping : Mapping) (keys : List Text) (world : World) :
    (mapKeys job mapping keys).runIn world =
      match (survey job mapping world keys).left with
      | [] => (.ok (survey job mapping world keys).mapping, (survey job mapping world keys).world)
      | key :: _ => (mapKey job (survey job mapping world keys).mapping key).runIn
        (survey job mapping world keys).world := by
  induction keys generalizing mapping world with
  | nil => rfl
  | cons key rest ih =>
    rw [mapKeys, Action.runIn_bind, survey]
    rcases hrun : (mapKey job mapping key).runIn world with ⟨failure | next, after⟩
    · simp only [hrun]
    · exact ih next after

theorem lookedAt_error (h : lookedAt job mapping key world.files = .error failure) :
    (∃ fault, (world.files.makeDirectories (job.localCopy key).directory).1 = .error fault ∧
        failure = job.reported (.directory key) (.ofFileTree fault)) ∨
      ∃ fault, (world.files.makeDirectories (job.localCopy key).directory).1 = .ok () ∧
        (begun job key world).files.openFile (job.localPath key) true = .error fault ∧
        failure = job.reported (.opening key) (.ofFileTree fault) := by
  rcases hmake : world.files.makeDirectories (job.localCopy key).directory with
    ⟨(refusal | fault) | u, made⟩
  all_goals simp only [lookedAt, hmake] at h
  · exact .inl ⟨_, rfl, (Except.error.inj h).symm⟩
  · exact .inl ⟨_, rfl, (Except.error.inj h).symm⟩
  · have hbegun : (begun job key world).files = made := by simp only [begun, hmake]
    rw [hbegun]
    split at h
    · simp at h
    · rcases hopen : made.openFile (job.localPath key) true with (refusal | fault) | ⟨place, opened⟩
      all_goals
        rw [Job.localPath] at hopen
        simp only [hopen] at h
      · exact .inr ⟨_, rfl, rfl, (Except.error.inj h).symm⟩
      · exact .inr ⟨_, rfl, rfl, (Except.error.inj h).symm⟩
      · simp at h

-- The first key that is left is one that fails.
theorem mapKey_of_left (hleft : (survey job mapping world keys).left = key :: rest) :
    ∃ failure after, (mapKey job (survey job mapping world keys).mapping key).runIn
      (survey job mapping world keys).world = (.error failure, after) := by
  induction keys generalizing mapping world with
  | nil => simp [survey] at hleft
  | cons first others ih =>
    rw [survey] at hleft ⊢
    rcases hrun : (mapKey job mapping first).runIn world with ⟨failure | next, after⟩
    · rw [hrun] at hleft
      obtain ⟨rfl, rfl⟩ := List.cons.inj hleft
      exact ⟨failure, after, hrun⟩
    · rw [hrun] at hleft
      exact ih hleft

-- The files that were opened have paths that name places, and nothing was submitted.
theorem opened_survey (job : Job) (world : World) :
    ∀ t ∈ (survey job .empty world job.backend.keys).mapping.transfers,
      Path.check t.path = .ok () ∧ t.delivery = none := by
  obtain ⟨seen, -, hseen⟩ := survey_surveyed job .empty world job.backend.keys
  intro t ht
  obtain ⟨hopened, hnew⟩ := hseen.opened (by simp [Mapping.empty]) t ht
  exact ⟨hopened.check_eq, hnew⟩

theorem ticks_survey (job : Job) (world : World) :
    (survey job .empty world job.backend.keys).world.ticks = world.ticks := by
  obtain ⟨seen, -, hseen⟩ := survey_surveyed job .empty world job.backend.keys
  exact hseen.log_eq.2

end Keys

/-! ## 3. Transfers -/

section Transfers

variable {cloud : Cloud} {bucket : Text} {cancelAt : Option Nat} {job : Job}
  {transfers before behind sent : List Transfer} {t : Transfer} {refused : Option ServiceError}
  {e : ServiceError} {failure : Failure} {world after : World}

theorem sentOf_of_accepted (h : ∀ t ∈ transfers, Accepted cloud bucket t) :
    sentOf cloud bucket transfers = (transfers.map (·.deliver cloud bucket), none) := by
  induction transfers with
  | nil => rfl
  | cons t rest ih =>
    have hrest := ih fun s hs => h s (List.mem_cons_of_mem _ hs)
    have hfirst := h t List.mem_cons_self
    rw [sentOf, hrest]
    split
    · rename_i e hsubmission hfault
      rw [hfirst hsubmission] at hfault
      simp at hfault
    · rfl

-- Submission ends at the first transfer that is not accepted.
theorem sentOf_of_refused (hbefore : ∀ s ∈ before, Accepted cloud bucket s)
    (hsubmission : (cloud.transfer bucket t.key).atSubmission = true)
    (hfault : (cloud.transfer bucket t.key).fault = some e) :
    (sentOf cloud bucket (before ++ t :: behind)).2 = some e := by
  induction before with
  | nil => rw [List.nil_append, sentOf, hsubmission, hfault]
  | cons first rest ih =>
    have hrest := ih fun s hs => hbefore s (List.mem_cons_of_mem _ hs)
    have hfirst := hbefore first List.mem_cons_self
    rw [List.cons_append, sentOf]
    split
    · rename_i problem hat hproblem
      rw [hfirst hat] at hproblem
      simp at hproblem
    · exact hrest

-- All transfers are accepted, or there is a first one that is not.
theorem accepted_or_refused (cloud : Cloud) (bucket : Text) (transfers : List Transfer) :
    (∀ t ∈ transfers, Accepted cloud bucket t) ∨
      ∃ before t behind e, transfers = before ++ t :: behind ∧
        (∀ s ∈ before, Accepted cloud bucket s) ∧
        (cloud.transfer bucket t.key).atSubmission = true ∧
        (cloud.transfer bucket t.key).fault = some e := by
  cases hfind : transfers.find? fun t => (cloud.transfer bucket t.key).atSubmission &&
      (cloud.transfer bucket t.key).fault.isSome with
  | none =>
    left
    intro t ht hsubmission
    have hnone := List.find?_eq_none.mp hfind t ht
    simpa [hsubmission] using hnone
  | some t =>
    right
    obtain ⟨hrefused, before, behind, rfl, hbefore⟩ := List.find?_eq_some_iff_append.mp hfind
    obtain ⟨hsubmission, hfault⟩ := Bool.and_eq_true_iff.mp hrefused
    obtain ⟨e, he⟩ := Option.isSome_iff_exists.mp hfault
    refine ⟨before, t, behind, e, rfl, fun s hs hat => ?_, hsubmission, he⟩
    have hnone := hbefore s hs
    simpa [hat] using hnone

-- No transfer has a fault, or there is a first one that has.
theorem faultless_or_faulty (cloud : Cloud) (bucket : Text) (transfers : List Transfer) :
    (∀ t ∈ transfers, (cloud.transfer bucket t.key).fault = none) ∨
      ∃ before t behind e, transfers = before ++ t :: behind ∧
        (∀ s ∈ before, (cloud.transfer bucket s.key).fault = none) ∧
        (cloud.transfer bucket t.key).fault = some e := by
  cases hfind : transfers.find? fun t => (cloud.transfer bucket t.key).fault.isSome with
  | none =>
    left
    intro t ht
    simpa using List.find?_eq_none.mp hfind t ht
  | some t =>
    right
    obtain ⟨hfault, before, behind, rfl, hbefore⟩ := List.find?_eq_some_iff_append.mp hfind
    obtain ⟨e, he⟩ := Option.isSome_iff_exists.mp hfault
    exact ⟨before, t, behind, e, rfl, fun s hs => by simpa using hbefore s hs, he⟩

theorem await_result (job : Job) (cancelAt : Option Nat) (sent : List Transfer) (world : World) :
    ((await job cancelAt sent).runIn world).1 =
      if ∀ limit ∈ cancelAt, (waits limit sent world.ticks).1 = true then .ok ()
      else .error (.error (cancelledError job)) := by
  cases cancelAt with
  | none => simp [await]
  | some limit =>
    simp only [await, Action.runIn_bind, Action.runIn_ticks, Action.runIn_modify,
      Option.mem_some_iff, forall_eq']
    cases (waits limit sent world.ticks).1 <;> rfl

-- Transfers that were all accepted are cancelled if the waiting for them ends early.
theorem finish_of_early {limit : Nat} (hcancel : cancelAt = some limit)
    (hearly : (waits limit sent world.ticks).1 = false) :
    ((finish job cancelAt sent none).runIn world).1 = .error (.error (cancelledError job)) := by
  have hawait := await_result job cancelAt sent world
  rw [if_neg (by simp [hcancel, hearly])] at hawait
  rcases hrun : (await job cancelAt sent).runIn world with ⟨result, after⟩
  rw [hrun] at hawait
  obtain rfl : result = .error _ := hawait
  exact congrArg Prod.fst (Action.bind_error.mpr (.inl hrun))

-- Transfers that were all accepted and waited for end as asking for their results does.
theorem finish_of_waited {result : Except Failure Unit}
    (hwaited : ∀ limit ∈ cancelAt, (waits limit sent world.ticks).1 = true)
    (hcollect : ∀ between : World, ((collect job sent).runIn between).1 = result) :
    ((finish job cancelAt sent none).runIn world).1 = result := by
  have hawait := await_result job cancelAt sent world
  rw [if_pos hwaited] at hawait
  rcases hrun : (await job cancelAt sent).runIn world with ⟨found, after⟩
  rw [hrun] at hawait
  obtain rfl : found = .ok () := hawait
  simp only [finish, Action.runIn_bind, hrun]
  exact hcollect after

-- The first fault among results is the one that is reported.
theorem collect_of_faulty (hbefore : ∀ s ∈ before, (cloud.transfer bucket s.key).fault = none)
    (hfault : (cloud.transfer bucket t.key).fault = some e) :
    ((collect job ((before ++ t :: behind).map (·.deliver cloud bucket))).runIn world).1 =
      .error (job.reported (.completion t.key) (.service e)) := by
  induction before with
  | nil =>
    simp only [List.nil_append, List.map_cons, collect, Transfer.deliver, Option.bind_some, hfault]
    cases e <;> rfl
  | cons first rest ih =>
    have hfirst := hbefore first List.mem_cons_self
    simp only [List.cons_append, List.map_cons, collect, Transfer.deliver, Option.bind_some, hfirst]
    exact ih fun s hs => hbefore s (List.mem_cons_of_mem _ hs)

theorem collect_of_faultless (h : ∀ t ∈ transfers, (cloud.transfer bucket t.key).fault = none) :
    (collect job (transfers.map (·.deliver cloud bucket))).runIn world = (.ok (), world) := by
  induction transfers with
  | nil => rfl
  | cons t rest ih =>
    simp only [List.map_cons, collect, Transfer.deliver, Option.bind_some, h t List.mem_cons_self]
    exact ih fun s hs => h s (List.mem_cons_of_mem _ hs)

end Transfers

/-! ## 4. The whole fetch -/

section Fetches

variable {cloud : Cloud} {cancelAt : Option Nat} {job : Job} {transfers : List Transfer}
  {key : Text} {rest : List Text} {connection : Connection} {stage : Stage} {failure : Failure}
  {world between after : World}

theorem connecting_result (cloud : Cloud) (job : Job) (world : World) :
    ((connecting cloud .standard job).runIn world).1 =
      ((Client.ofBackend job.backend).connectionFrom cloud .s3).mapError
        (withBucket "Unable to connect to" job.backend.bucket) := by
  rw [connecting, withClient, Action.runIn_tryCatch]
  simp only [Factory.standard, Action.runIn_bind, Action.runIn_record]
  generalize world.record _ = said
  have hresult : ((Action.ofClient ((Client.ofBackend job.backend).connect cloud .s3)).runIn said).1 =
      (Client.ofBackend job.backend).connectionFrom cloud .s3 := by
    rw [← Client.run_connect (s := .fresh said.calls) cloud _ .s3 rfl rfl]
    unfold Action.ofClient Action.runIn
    simp only [ExceptT.run, StateT.run]
    rcases (Client.ofBackend job.backend).connect cloud .s3 (.fresh said.calls) with ⟨result, state⟩
    rfl
  rw [← hresult]
  rcases (Action.ofClient ((Client.ofBackend job.backend).connect cloud .s3)).runIn said with
    ⟨failure | connection, after⟩ <;> rfl

-- A download that cannot connect fails as connecting does.
theorem download_of_unconnected (hchecks : ∀ t ∈ transfers, Path.check t.path = .ok ())
    (hnew : ∀ t ∈ transfers, t.delivery = none)
    (h : ((connecting cloud .standard job).runIn world).1 = .error failure) :
    ((download cloud .standard job cancelAt transfers).runIn world).1 = .error failure := by
  rcases hrun : (connecting cloud .standard job).runIn world with ⟨result, between⟩
  rw [hrun] at h
  obtain rfl : result = .error failure := h
  have hdiscard := discard_of_unsubmitted hchecks hnew between
  rcases hdiscarded : (discard transfers).runIn between with ⟨result, after⟩
  rw [hdiscarded] at hdiscard
  obtain rfl : result = .ok () := hdiscard
  have hremedied : ((connecting cloud .standard job).onFailure (discard transfers)).runIn world =
      (.error failure, after) := by
    rw [Action.runIn_onFailure, hrun]
    simp only [hdiscarded]
  exact congrArg Prod.fst (Action.bind_error.mpr (.inl hremedied))

-- Once connected a download ends as its transfers do that were sent, with the clean-up behind them.
theorem download_of_connected (cancelAt : Option Nat) (transfers : List Transfer)
    (hconnect : (connecting cloud .standard job).runIn world = (.ok connection, between)) :
    ∃ waiting : World, waiting.ticks = between.ticks ∧
      (download cloud .standard job cancelAt transfers).runIn world =
        (((finish job cancelAt (sentOf cloud job.backend.bucket transfers).1
          (sentOf cloud job.backend.bucket transfers).2).onFailure
            (discard (sentOf cloud job.backend.bucket transfers).1)).andFinally
              (closeAll (sentOf cloud job.backend.bucket transfers).1)).runIn waiting := by
  obtain ⟨waiting, hsubmit, -, -, hticks⟩ :=
    submit_run cloud job.backend.bucket transfers between
  have hconnected : ((connecting cloud .standard job).onFailure (discard transfers)).runIn world =
      (.ok connection, between) := by rw [Action.runIn_onFailure, hconnect]
  refine ⟨waiting, hticks, ?_⟩
  unfold download
  rw [Action.runIn_bind]
  unfold connecting at hconnected
  simp only [hconnected, Action.runIn_bind, hsubmit]

-- A download whose transfers fail fails as they do, unless an interruption ends the clean-up.
theorem download_of_unfinished (hchecks : ∀ t ∈ transfers, Path.check t.path = .ok ())
    (hconnect : (connecting cloud .standard job).runIn world = (.ok connection, between))
    (hfinish : ∀ waiting : World, waiting.ticks = between.ticks →
      ((finish job cancelAt (sentOf cloud job.backend.bucket transfers).1
        (sentOf cloud job.backend.bucket transfers).2).runIn waiting).1 = .error failure) :
    ∃ after, (download cloud .standard job cancelAt transfers).runIn world =
      (.error (if ∃ t ∈ (sentOf cloud job.backend.bucket transfers).1,
        t.verdict after.ticks = .interrupted then .interrupted else failure), after) := by
  have hsent : ∀ s ∈ (sentOf cloud job.backend.bucket transfers).1, Path.check s.path = .ok () := by
    intro s hs
    obtain ⟨t, ht, hpath, -⟩ := mem_sentOf cloud job.backend.bucket hs
    rw [hpath]
    exact hchecks t ht
  obtain ⟨waiting, hticks, hrun⟩ := download_of_connected cancelAt transfers hconnect
  have hfails := hfinish waiting hticks
  rcases hwaited : (finish job cancelAt (sentOf cloud job.backend.bucket transfers).1
    (sentOf cloud job.backend.bucket transfers).2).runIn waiting with ⟨result, waited⟩
  rw [hwaited] at hfails
  obtain rfl : result = .error failure := hfails
  -- What is found of the clean-up is found in the world in which it ends: it does not wait.
  have hdiscard := discard_result hsent waited
  have hquiet := (discard_quiet (sentOf cloud job.backend.bucket transfers).1 waited).2
  rcases hdiscarded : (discard (sentOf cloud job.backend.bucket transfers).1).runIn waited with
    ⟨result, cleared⟩
  rw [hdiscarded] at hdiscard hquiet
  have hended : (download cloud .standard job cancelAt transfers).runIn world =
      (result.bind fun _ => .error failure, { cleared with
        files := closeAll (sentOf cloud job.backend.bucket transfers).1 cleared.files }) := by
    simp only [hrun, Action.runIn_andFinally, Action.runIn_onFailure, hwaited, hdiscarded]
    cases result <;> rfl
  have hticks : cleared.ticks = waited.ticks := hquiet
  have hresult : result = _ := hdiscard
  refine ⟨_, hended.trans (Prod.ext ?_ rfl)⟩
  simp only [hticks, hresult]
  split <;> rfl

-- A fetch some of whose keys are left fails as looking at the first of them does.
theorem fetch_of_left (cloud : Cloud) (cancelAt : Option Nat)
    (hleft : (survey job .empty world job.backend.keys).left = key :: rest) :
    ∃ failure, lookedAt job (survey job .empty world job.backend.keys).mapping key
        (survey job .empty world job.backend.keys).world.files = .error failure ∧
      ((fetch cloud .standard cancelAt job).runIn world).1 = .error failure := by
  obtain ⟨failure, after, hkey⟩ := mapKey_of_left hleft
  have hlooked := mapKey_result (fun t ht => (opened_survey job world t ht).1)
    (fun t ht => (opened_survey job world t ht).2) job key
    (survey job .empty world job.backend.keys).world
  rw [hkey] at hlooked
  refine ⟨failure, hlooked.symm, ?_⟩
  have hkeys := mapKeys_survey job .empty job.backend.keys world
  simp only [hleft, hkey] at hkeys
  exact congrArg Prod.fst (Action.bind_error.mpr (.inl hkeys))

-- A fetch whose download fails ends as the download does.
theorem fetch_of_download (hleft : (survey job .empty world job.backend.keys).left = [])
    (hopened : (survey job .empty world job.backend.keys).mapping.transfers ≠ [])
    (h : (download cloud .standard job cancelAt
      (survey job .empty world job.backend.keys).mapping.transfers).runIn
        (announced job (survey job .empty world job.backend.keys).mapping.transfers
          (survey job .empty world job.backend.keys).world) = (.error failure, after)) :
    (fetch cloud .standard cancelAt job).runIn world = (.error failure, after) := by
  have hkeys := mapKeys_survey job .empty job.backend.keys world
  simp only [hleft] at hkeys
  rw [announced] at h
  simp only [fetch, Action.runIn_bind, hkeys, if_pos hopened, Action.runIn_record, h]

-- The client of a fetch whose transfers come to be submitted connects, and nothing is waited for.
theorem Ready.connects_in (h : Ready cloud job world transfers) :
    ∃ connection between, (connecting cloud .standard job).runIn (announced job transfers
        (survey job .empty world job.backend.keys).world) = (.ok connection, between) ∧
      between.ticks = world.ticks := by
  obtain ⟨session, hopens, hconnect⟩ := h.connects
  have hresult := connecting_result cloud job (announced job transfers
    (survey job .empty world job.backend.keys).world)
  rw [Client.connectionFrom_of_opens hopens hconnect] at hresult
  rcases hrun : (connecting cloud .standard job).runIn (announced job transfers
    (survey job .empty world job.backend.keys).world) with ⟨result, between⟩
  rw [hrun] at hresult
  obtain rfl : result = .ok _ := hresult
  exact ⟨_, between, rfl, (connecting_alike hrun).ticks_eq.trans (ticks_survey job world)⟩

theorem Ready.transfersAfter_eq (h : Ready cloud job world transfers) :
    transfersAfter cloud .standard job world = (sentOf cloud job.backend.bucket transfers).1 := by
  obtain ⟨connection, between, hconnect, -⟩ := h.connects_in
  simp only [transfersAfter, h.left_eq, h.transfers_eq, hconnect]

-- A fetch whose transfers come to be submitted fails as they do.
theorem Ready.fetch_of_unfinished (h : Ready cloud job world transfers)
    (hfinish : ∀ waiting : World, waiting.ticks = world.ticks →
      ((finish job cancelAt (sentOf cloud job.backend.bucket transfers).1
        (sentOf cloud job.backend.bucket transfers).2).runIn waiting).1 = .error failure) :
    ∃ after, (fetch cloud .standard cancelAt job).runIn world =
      (.error (if ∃ t ∈ transfersAfter cloud .standard job world,
        t.verdict after.ticks = .interrupted then .interrupted else failure), after) := by
  obtain ⟨connection, between, hconnect, hticks⟩ := h.connects_in
  have hchecks : ∀ t ∈ transfers, Path.check t.path = .ok () := fun t ht =>
    (opened_survey job world t (h.transfers_eq ▸ ht)).1
  obtain ⟨after, hdownload⟩ := download_of_unfinished hchecks hconnect fun waiting hwaiting =>
    hfinish waiting (hwaiting.trans hticks)
  have hne := h.ne_nil
  rw [h.transfersAfter_eq]
  rw [← h.transfers_eq] at hdownload hne ⊢
  exact ⟨after, fetch_of_download h.left_eq hne hdownload⟩

-- Before transfers are submitted nothing interrupts the clean-up.
theorem uninterrupted_of_unsubmitted
    (h : transfersAfter cloud .standard job world =
      (survey job .empty world job.backend.keys).mapping.transfers) (ticks : Nat) :
    ¬ ∃ t ∈ transfersAfter cloud .standard job world, t.verdict ticks = .interrupted := by
  rintro ⟨t, ht, hverdict⟩
  rw [h] at ht
  simp [verdict_of_unsubmitted (opened_survey job world t ht).2] at hverdict

/-- **A fetch fails as is reported what fails first**, unless an interruption ends the clean-up. -/
theorem fetch_of_raised (h : Raised cloud cancelAt job world stage failure) :
    ∃ after, (fetch cloud .standard cancelAt job).runIn world =
      (.error (if ∃ t ∈ transfersAfter cloud .standard job world,
        t.verdict after.ticks = .interrupted then .interrupted else job.reported stage failure),
        after) := by
  have hunsubmitted {problem : Failure}
      (hsame : transfersAfter cloud .standard job world =
        (survey job .empty world job.backend.keys).mapping.transfers)
      (hproblem : ((fetch cloud .standard cancelAt job).runIn world).1 = .error problem) :
      ∃ after, (fetch cloud .standard cancelAt job).runIn world =
        (.error (if ∃ t ∈ transfersAfter cloud .standard job world,
          t.verdict after.ticks = .interrupted then .interrupted else problem), after) := by
    refine ⟨_, Prod.ext ?_ rfl⟩
    rw [hproblem, if_neg (uninterrupted_of_unsubmitted hsame _)]
  have hkey {key : Text} {rest : List Text}
      (hleft : (survey job .empty world job.backend.keys).left = key :: rest) :
      transfersAfter cloud .standard job world =
        (survey job .empty world job.backend.keys).mapping.transfers := by
    simp only [transfersAfter, hleft]
  cases h with
  | directory hleft hmake =>
    obtain ⟨problem, hlooked, hproblem⟩ := fetch_of_left cloud cancelAt hleft
    refine hunsubmitted (hkey hleft) (hproblem.trans (congrArg _ ?_))
    rcases lookedAt_error hlooked with ⟨fault, hfault, hreport⟩ | ⟨fault, hmade, -⟩
    · rw [hmake, Except.error.injEq] at hfault
      rw [hreport, hfault]
    · rw [hmake] at hmade
      simp at hmade
  | opening hleft hmake hopen =>
    obtain ⟨problem, hlooked, hproblem⟩ := fetch_of_left cloud cancelAt hleft
    refine hunsubmitted (hkey hleft) (hproblem.trans (congrArg _ ?_))
    rcases lookedAt_error hlooked with ⟨fault, hfault, -⟩ | ⟨fault, -, hfault, hreport⟩
    · rw [hmake] at hfault
      simp at hfault
    · rw [hopen, Except.error.injEq] at hfault
      rw [hreport, hfault]
  | @connecting stage e hleft hopened hdenied =>
    have hresult := connecting_result cloud job (announced job
      (survey job .empty world job.backend.keys).mapping.transfers
      (survey job .empty world job.backend.keys).world)
    rw [Client.connectionFrom_of_denied hdenied] at hresult
    have hsame : transfersAfter cloud .standard job world =
        (survey job .empty world job.backend.keys).mapping.transfers := by
      simp only [transfersAfter, hleft, hresult, Except.mapError]
    have hdownload : ((download cloud .standard job cancelAt
        (survey job .empty world job.backend.keys).mapping.transfers).runIn _).1 = .error _ :=
      download_of_unconnected (fun t ht => (opened_survey job world t ht).1)
        (fun t ht => (opened_survey job world t ht).2) hresult
    exact hunsubmitted hsame (congrArg Prod.fst (fetch_of_download hleft hopened
      (Prod.ext hdownload rfl)))
  | @submission before behind t e hready hbefore hsubmission hfault =>
    refine hready.fetch_of_unfinished fun waiting _ => ?_
    rw [sentOf_of_refused hbefore hsubmission hfault]
    rfl
  | waiting hready haccepted hcancel hearly =>
    refine hready.fetch_of_unfinished fun waiting hwaiting => ?_
    rw [sentOf_of_accepted haccepted]
    exact finish_of_early hcancel (hwaiting ▸ hearly)
  | completion hready haccepted hwaited hbefore hfault =>
    refine hready.fetch_of_unfinished fun waiting hwaiting => ?_
    rw [sentOf_of_accepted haccepted]
    exact finish_of_waited (hwaiting ▸ hwaited) fun between => collect_of_faulty hbefore hfault

-- A download whose transfers do not fail does not fail.
theorem download_of_finished
    (hconnect : (connecting cloud .standard job).runIn world = (.ok connection, between))
    (hfinish : ∀ waiting : World, waiting.ticks = between.ticks →
      ((finish job cancelAt (sentOf cloud job.backend.bucket transfers).1
        (sentOf cloud job.backend.bucket transfers).2).runIn waiting).1 = .ok ()) :
    ((download cloud .standard job cancelAt transfers).runIn world).1 = .ok () := by
  obtain ⟨waiting, hticks, hrun⟩ := download_of_connected cancelAt transfers hconnect
  have hfinished := hfinish waiting hticks
  rcases hwaited : (finish job cancelAt (sentOf cloud job.backend.bucket transfers).1
    (sentOf cloud job.backend.bucket transfers).2).runIn waiting with ⟨result, waited⟩
  rw [hwaited] at hfinished
  obtain rfl : result = .ok () := hfinished
  rw [hrun]
  simp only [Action.runIn_andFinally, Action.runIn_onFailure, hwaited]

-- A fetch all of whose transfers are accepted, waited for and faultless does not fail.
theorem Ready.fetch_of_faultless (h : Ready cloud job world transfers)
    (haccepted : ∀ t ∈ transfers, Accepted cloud job.backend.bucket t)
    (hwaited : ∀ limit ∈ cancelAt, (waits limit
      (transfers.map (·.deliver cloud job.backend.bucket)) world.ticks).1 = true)
    (hfaultless : ∀ t ∈ transfers, (cloud.transfer job.backend.bucket t.key).fault = none) :
    ((fetch cloud .standard cancelAt job).runIn world).1.toBool = true := by
  obtain ⟨connection, between, hconnect, hticks⟩ := h.connects_in
  have hdownload : ((download cloud .standard job cancelAt transfers).runIn (announced job transfers
      (survey job .empty world job.backend.keys).world)).1 = .ok () := by
    refine download_of_finished hconnect fun waiting hwaiting => ?_
    rw [sentOf_of_accepted haccepted]
    refine finish_of_waited ?_ fun _ => congrArg Prod.fst (collect_of_faultless hfaultless)
    rwa [hwaiting, hticks]
  have hkeys := mapKeys_survey job .empty job.backend.keys world
  simp only [h.left_eq] at hkeys
  rcases hrun : (download cloud .standard job cancelAt transfers).runIn (announced job transfers
    (survey job .empty world job.backend.keys).world) with ⟨result, after⟩
  rw [hrun] at hdownload
  obtain rfl : result = .ok () := hdownload
  rw [announced] at hrun
  simp only [fetch, Action.runIn_bind, hkeys, h.transfers_eq, if_pos h.ne_nil, Action.runIn_record,
    hrun, Action.runIn_pure, Except.toBool]

-- A fetch that passes over all its keys does not fail.
theorem fetch_of_nothing_opened (cloud : Cloud) (cancelAt : Option Nat)
    (hleft : (survey job .empty world job.backend.keys).left = [])
    (hnone : (survey job .empty world job.backend.keys).mapping.transfers = []) :
    ((fetch cloud .standard cancelAt job).runIn world).1.toBool = true := by
  have hkeys := mapKeys_survey job .empty job.backend.keys world
  simp only [hleft] at hkeys
  simp only [fetch, Action.runIn_bind, hkeys, hnone, ne_eq, not_true_eq_false, if_false,
    Action.runIn_record, Action.runIn_pure, Except.toBool]

-- Of a fetch whose transfers come to be submitted either something fails or nothing does.
theorem Ready.raised (h : Ready cloud job world transfers)
    (hfails : ((fetch cloud .standard cancelAt job).runIn world).1.toBool = false) :
    ∃ stage failure, Raised cloud cancelAt job world stage failure := by
  rcases accepted_or_refused cloud job.backend.bucket transfers with
    haccepted | ⟨before, t, behind, e, rfl, hbefore, hsubmission, hfault⟩
  swap
  · exact ⟨_, _, .submission h hbefore hsubmission hfault⟩
  by_cases hwaited : ∀ limit ∈ cancelAt, (waits limit
    (transfers.map (·.deliver cloud job.backend.bucket)) world.ticks).1 = true
  · rcases faultless_or_faulty cloud job.backend.bucket transfers with
      hfaultless | ⟨before, t, behind, e, rfl, hbefore, hfault⟩
    · rw [h.fetch_of_faultless haccepted hwaited hfaultless] at hfails
      simp at hfails
    · exact ⟨_, _, .completion h haccepted hwaited hbefore hfault⟩
  · obtain ⟨limit, hlimit⟩ := not_forall.mp hwaited
    obtain ⟨hcancel, hearly⟩ := Classical.not_imp.mp hlimit
    exact ⟨_, _, .waiting h haccepted hcancel (by simpa using hearly)⟩

/-- **A fetch fails if and only if something fails in it.** -/
theorem fails_iff : ((fetch cloud .standard cancelAt job).runIn world).1.toBool = false ↔
    ∃ stage failure, Raised cloud cancelAt job world stage failure := by
  constructor
  · intro hfails
    cases hleft : (survey job .empty world job.backend.keys).left with
    | cons key rest =>
      obtain ⟨problem, hlooked, -⟩ := fetch_of_left cloud cancelAt hleft
      rcases lookedAt_error hlooked with ⟨fault, hmake, -⟩ | ⟨fault, hmake, hopen, -⟩
      · exact ⟨_, _, .directory hleft hmake⟩
      · exact ⟨_, _, .opening hleft hmake hopen⟩
    | nil =>
      by_cases hnone : (survey job .empty world job.backend.keys).mapping.transfers = []
      · rw [fetch_of_nothing_opened cloud cancelAt hleft hnone] at hfails
        simp at hfails
      rcases (Client.ofBackend job.backend).opens_or_denied cloud .s3 with
        hconnects | ⟨stage, e, hdenied⟩
      · exact Ready.raised ⟨hleft, rfl, hnone, hconnects⟩ hfails
      · exact ⟨_, _, .connecting hleft hnone hdenied⟩
  · rintro ⟨stage, failure, hraised⟩
    obtain ⟨after, hrun⟩ := fetch_of_raised hraised
    rw [hrun]
    rfl

end Fetches

/-! ## 5. What is promised -/

/-- A failure that comes from a service, from the way to one, or from the operating system. -/
def comesFromOutside : Failure → Bool
  | .refused _ => true
  | .service (.invalidValue _) | .service .interrupted => false
  | .service _ => true
  | _ => false

/-- What an error has to be about that reports a failure at a stage: the configuration, if the
environment names an unknown profile or the connection lacks a region, and else fetching from the
bucket. -/
def Promised (bucket : Text) : Stage → Failure → Error → Prop
  | .connecting .environment, .service (.noProfile _), e
  | .connecting .connection, .service .noRegion, e => ∃ field, e.topic = .configuration field
  | _, _, e => ∃ key, e.topic = .fetch (some bucket) key

/-- A failure that is not reported as promised at a stage. At a submission nothing is put into words.
What a service refuses to a session or a connection, and what the operating system does there, passes
through the client; a session that lacks a region is reported like a connection that does. -/
def Stage.lets : Stage → Failure → Bool
  | .submission _, _ => true
  | .connecting .environment, .service e | .connecting .roleSession, .service e =>
    match e with
    | .refused .. | .noRegion | .system _ => true
    | _ => false
  | .connecting .tokens, .service (.system _) | .connecting .role, .service (.system _) => true
  | .connecting .connection, .service (.refused ..) => true
  | .connecting .connection, .service (.system _) => true
  | _, _ => false

section Promises

variable {cloud : Cloud} {cancelAt : Option Nat} {job : Job} {world : World} {stage : Stage}
  {failure : Failure}

-- What the client reports is checked stage by stage and error by error.
theorem reported_connecting_iff (job : Job) (stage : Client.Stage) {e : ServiceError}
    (h : comesFromOutside (.service e) = true) :
    (∃ problem, job.reported (.connecting stage) (.service e) = .error problem ∧
        Promised job.backend.bucket (.connecting stage) (.service e) problem) ↔
      Stage.lets (.connecting stage) (.service e) = false := by
  cases stage <;> cases e <;>
    simp [comesFromOutside, Job.reported, Client.reported, Client.reworded, Client.sessionFailure,
      Client.roleFailure, Client.connectionFailure, Client.connectionError, Client.roleError,
      Client.credentialsError, Client.regionError, Client.profileError, ServiceError.isOfService,
      ServiceError.isConnectivity, withBucket, namingBucket, Error.about, Error.isFetch,
      Error.bucket?, Stage.lets, Promised] at h ⊢

-- What is reported is promised unless the stage lets the failure through.
theorem promised_iff (h : Raised cloud cancelAt job world stage failure)
    (houtside : comesFromOutside failure = true) :
    (∃ e, job.reported stage failure = .error e ∧ Promised job.backend.bucket stage failure e) ↔
      stage.lets failure = false := by
  cases h with
  | @directory key rest fault hleft hmake =>
    cases fault with
    | refused refusal => exact iff_of_true ⟨_, rfl, some key, rfl⟩ rfl
    | path fault => simp [Failure.ofFileTree, comesFromOutside] at houtside
  | @opening key rest fault hleft hmake hopen =>
    cases fault with
    | refused refusal => exact iff_of_true ⟨_, rfl, some key, rfl⟩ rfl
    | path fault => simp [Failure.ofFileTree, comesFromOutside] at houtside
  | connecting hleft hopened hdenied => exact reported_connecting_iff job _ houtside
  | submission hready hbefore hsubmission hfault =>
    exact iff_of_false (by simp [Job.reported]) (by simp [Stage.lets])
  | waiting hready haccepted hcancel hearly => simp [comesFromOutside] at houtside
  | @completion before behind t e hready haccepted hwaited hbefore hfault =>
    have hreported : job.reported (.completion t.key) (.service e) =
        .error (transferError job t.key e) := by
      cases e with
      | interrupted => simp [comesFromOutside] at houtside
      | _ => rfl
    exact iff_of_true ⟨_, hreported, some t.key, rfl⟩ rfl

/-- **A fetch fails exactly if something fails in it, and what comes from outside is then reported as
promised exactly if** the stage does not let it through and no interruption ends the clean-up. -/
theorem worded_iff (cloud : Cloud) (cancelAt : Option Nat) (job : Job) (world : World) :
    let run := (fetch cloud .standard cancelAt job).runIn world
    (run.1.toBool = false ↔ ∃ stage failure, Raised cloud cancelAt job world stage failure) ∧
      ∀ stage failure, Raised cloud cancelAt job world stage failure →
        comesFromOutside failure = true →
        ((∃ e, run.1 = .error (.error e) ∧ Promised job.backend.bucket stage failure e) ↔
          stage.lets failure = false ∧
            ∀ t ∈ transfersAfter cloud .standard job world,
              t.verdict run.2.ticks ≠ .interrupted) := by
  refine ⟨fails_iff, fun stage failure hraised houtside => ?_⟩
  obtain ⟨after, hrun⟩ := fetch_of_raised hraised
  simp only [hrun, Except.error.injEq]
  by_cases hinterrupted : ∃ t ∈ transfersAfter cloud .standard job world,
      t.verdict after.ticks = .interrupted
  · rw [if_pos hinterrupted]
    refine iff_of_false (by simp [Failure.interrupted]) fun hquiet => ?_
    obtain ⟨t, ht, hverdict⟩ := hinterrupted
    exact hquiet.2 t ht hverdict
  · rw [if_neg hinterrupted, promised_iff hraised houtside]
    exact ⟨fun hlets => ⟨hlets, fun t ht hverdict => hinterrupted ⟨t, ht, hverdict⟩⟩, And.left⟩

end Promises

/-- A role that cannot be assumed for want of credentials is reported as promised: the error names the
bucket, although the client that raised it does not know it. -/
theorem worded_of_unlent_role :
    let job : Job := ⟨⟨"b", ["a"], [], "r", [], []⟩, "d", ⟨[], false, []⟩⟩
    let run := (fetch spellingCloud .standard none job).runIn sampleWorld
    Raised spellingCloud none job sampleWorld (.connecting .role) (.service .noCredentials) ∧
      run.1.toBool = false ∧
      ∃ e key, run.1 = .error (.error e) ∧ e.topic = .fetch (some "b") key := by
  intro job run
  have hraised : Raised spellingCloud none job sampleWorld (.connecting .role)
      (.service .noCredentials) := by
    have hdenied : (Client.ofBackend job.backend).Denied spellingCloud .s3 .role .noCredentials :=
      .role rfl rfl rfl rfl
    exact .connecting (by decide +kernel) (by decide +kernel) hdenied
  obtain ⟨hfails, hworded⟩ := worded_iff spellingCloud none job sampleWorld
  obtain ⟨e, he, key, htopic⟩ := (hworded _ _ hraised rfl).mpr ⟨rfl, by decide +kernel⟩
  exact ⟨hraised, hfails.mpr ⟨_, _, hraised⟩, e, key, he, htopic⟩

/-- A cloud that refuses every transfer when it is submitted. -/
def refusingCloud : Cloud :=
  { spellingCloud with
    transfer := fun _ _ => ⟨[0x78], some (.refused "500" "GetObject" "broken"), true, 0⟩ }

/-- **A refusal at a submission leaves the fetch as it came from the service**, in no words of the
library. -/
theorem wordless_submission :
    let job := sampleJob ["a"] false
    let failure : Failure := .service (.refused "500" "GetObject" "broken")
    let run := (fetch refusingCloud .standard none job).runIn sampleWorld
    Raised refusingCloud none job sampleWorld (.submission "a") failure ∧
      comesFromOutside failure = true ∧ run.1 = .error failure ∧
      ¬ ∃ e, run.1 = .error (.error e) := by
  intro job failure run
  have hready : Ready refusingCloud job sampleWorld
      ([] ++ ⟨"a", "d/b/a", ["w", "d", "b", "a"], none⟩ :: []) :=
    ⟨by decide +kernel, by decide +kernel, by simp, _, .plain rfl rfl, rfl⟩
  have hrun : run.1 = .error failure := by decide +kernel
  refine ⟨.submission hready (by simp) rfl rfl, rfl, hrun, ?_⟩
  rintro ⟨e, he⟩
  rw [hrun] at he
  simp [failure] at he

end StateOwnership.Fetch
