import StateOwnership.Proofs.Fetch.Delivering
import StateOwnership.Proofs.OrderedMap

/-!
# What a fetch accounts for

A fetch that succeeds deals its keys out: **every occurrence of a key is either downloaded or passed
over, and both lists keep the order of the keys**. It names the last key of every path as its owner,
all the paths are there, and its factory is asked for a client once if anything is downloaded, and not
at all otherwise.
-/

namespace StateOwnership.Fetch

/-! ## 1. Keys that are dealt out -/

/-- A list is dealt out to two lists: each of its elements goes to one of them, in order. -/
inductive Dealt {α : Type} : List α → List α → List α → Prop where
  | nil : Dealt [] [] []
  | left {a : α} {whole left right : List α} (h : Dealt whole left right) :
      Dealt (a :: whole) (a :: left) right
  | right {a : α} {whole left right : List α} (h : Dealt whole left right) :
      Dealt (a :: whole) left (a :: right)

/-- A result accounts for the keys of a job, if what is there afterwards is as given. -/
structure Accounts (job : Job) (files : FileTree) (outcome : Outcome) : Prop where
  dealt : Dealt job.backend.keys outcome.downloaded outcome.skipped
  anew : job.options.overwrite = true → outcome.skipped = []
  paths : outcome.filenames.keys = (job.backend.keys.map job.localPath).eraseDups
  owner : ∀ path, outcome.filenames.get? path =
    (job.backend.keys.filter (job.localPath · = path)).getLast?.map job.backend.reference
  there : ∀ path ∈ outcome.filenames.keys, files.pathExists path = true

section Dealing

variable {cloud : Cloud} {factory : Factory} {cancelAt : Option Nat} {job : Job}
  {mapping next : Mapping} {key : Text} {keys : List Text} {world after : World}
  {outcome : Outcome}

-- Looking at keys deals them out, and passes over none of them with overwriting.
theorem Surveyed.dealt (h : Surveyed job keys mapping world next after) :
    ∃ opened passed, Dealt keys opened passed ∧
      next.transfers.map (·.key) = mapping.transfers.map (·.key) ++ opened ∧
      next.skipped = mapping.skipped ++ passed ∧
      (job.options.overwrite = true → passed = []) := by
  induction h with
  | nil => exact ⟨[], [], .nil, by simp, by simp, fun _ => rfl⟩
  | @cons key rest mapping middle final world between after hfirst hrest ih =>
    obtain ⟨opened, passed, hdealt, htransfers, hskipped, hanew⟩ := ih
    cases hfirst with
    | passedOver message hmade hthere hkeep =>
      refine ⟨opened, key :: passed, hdealt.right, htransfers, by rw [hskipped]; simp, ?_⟩
      simp [hkeep]
    | opened hmade hopen hnew =>
      exact ⟨key :: opened, passed, hdealt.left, by rw [htransfers]; simp, hskipped, hanew⟩

-- What a fetch that succeeds answers is what came of its keys.
theorem fetch_outcome
    (h : (fetch cloud factory cancelAt job).runIn world = (.ok outcome, after)) :
    ∃ mapping between, (mapKeys job .empty job.backend.keys).runIn world = (.ok mapping, between) ∧
      outcome = mapping.outcome job := by
  obtain ⟨mapping, between, hkeys, h⟩ := Action.bind_ok.mp h
  refine ⟨mapping, between, hkeys, ?_⟩
  have houtcome {last : World} (hlast : (do
      Action.record Log.debug Log.fetchSource (mapping.summary job).message
      return mapping.outcome job : Action Outcome).runIn last = (.ok outcome, after)) :
      outcome = mapping.outcome job := by
    simp only [Action.runIn_bind, Action.runIn_record, Action.runIn_pure, Prod.mk.injEq,
      Except.ok.injEq] at hlast
    exact hlast.1.symm
  split at h
  · obtain ⟨_, announced, -, h⟩ := Action.bind_ok.mp h
    obtain ⟨_, last, -, h⟩ := Action.bind_ok.mp h
    exact houtcome h
  · exact houtcome h

-- The last key of a path is its owner.
theorem get?_filenames (job : Job) (path : Text) : job.filenames.get? path =
    (job.backend.keys.filter (job.localPath · = path)).getLast?.map job.backend.reference := by
  rw [Job.filenames, OrderedMap.ofList, OrderedMap.get?_insertAll, OrderedMap.get?_empty,
    Option.or_none, List.filter_map, List.getLast?_map, Option.map_map]
  rfl

theorem keys_filenames (job : Job) :
    job.filenames.keys = (job.backend.keys.map job.localPath).eraseDups := by
  rw [Job.filenames, OrderedMap.keys_ofList, List.map_map]
  rfl

-- A fetch that succeeds accounts for its keys.
theorem fetch_accounts
    (h : (fetch cloud factory cancelAt job).runIn world = (.ok outcome, after)) :
    Accounts job after.files outcome := by
  have hnames := fetch_filenames h
  have hreached := fetch_reached h
  obtain ⟨mapping, between, hkeys, rfl⟩ := fetch_outcome h
  obtain ⟨opened, passed, hdealt, htransfers, hskipped, hanew⟩ := (mapKeys_surveyed hkeys).dealt
  have hopened : mapping.transfers.map (·.key) = opened := htransfers
  have hpassed : mapping.skipped = passed := hskipped
  refine ⟨?_, fun hover => hpassed.trans (hanew hover), ?_, fun path => ?_, fun path hpath => ?_⟩
  · rw [← hopened, ← hpassed] at hdealt
    exact hdealt
  · rw [hnames, keys_filenames]
  · rw [hnames, get?_filenames]
  · rw [hnames, keys_filenames, List.mem_eraseDups] at hpath
    obtain ⟨key, hkey, rfl⟩ := List.mem_map.mp hpath
    obtain ⟨hcheck, hlocate⟩ := hreached key hkey
    exact FileTree.pathExists_of_locate hcheck hlocate

end Dealing

/-! ## 2. What a factory is asked -/

/-- An action that notes the backends for which it asks a factory for a client. -/
abbrev Noting (α : Type) := ExceptT Failure (StateM (World × List Backend)) α

namespace Noting

def runIn {α : Type} (noting : Noting α) (world : World) (asked : List Backend) :
    Except Failure α × World × List Backend :=
  noting.run.run (world, asked)

/-- An action that asks no factory. -/
def ofAction {α : Type} (action : Action α) : Noting α := fun (world, asked) =>
  match action.runIn world with
  | (result, after) => (result, after, asked)

def ask (factory : Factory) (backend : Backend) : Noting (Except Error Client) :=
  fun (world, asked) => (.ok (factory backend), world, asked ++ [backend])

/-- As `Fetch.withClient`, with the backends noted. -/
def withClient {α : Type} (factory : Factory) (attempt : Text) (backend : Backend)
    (step : Client → Client.Step α) : Noting α :=
  tryCatch
    (do
      match ← ask factory backend with
      | .error e => ofAction (Action.failWith e)
      | .ok client => ofAction do
        Action.record Log.debug Log.clientSource client.greeting
        Action.ofClient (step client))
    fun failure => throw (withBucket attempt backend.bucket failure)

/-- As `Fetch.download`, with the backends noted. -/
def download (cloud : Cloud) (factory : Factory) (job : Job) (cancelAt : Option Nat)
    (transfers : List Transfer) : Noting Unit := do
  let connecting := withClient factory "Unable to connect to" job.backend fun client =>
    client.connect cloud .s3
  let _ ← tryCatch connecting fun failure => do
    ofAction (discard transfers)
    throw failure
  let (sent, refused) ← ofAction (submit cloud job.backend.bucket transfers)
  ofAction (Action.andFinally (Action.onFailure (finish job cancelAt sent refused) (discard sent))
    (closeAll sent))

/-- As `Fetch.fetch`, with the backends noted. -/
def fetch (cloud : Cloud) (factory : Factory) (cancelAt : Option Nat) (job : Job) :
    Noting Outcome := do
  let mapping ← ofAction (mapKeys job .empty job.backend.keys)
  let bucket := job.backend.bucket
  if mapping.transfers ≠ [] then
    ofAction (Action.record Log.info Log.fetchSource
      ("Downloading " ++ Text.ofNat mapping.transfers.length ++ " state file(s) from " ++ bucket))
    download cloud factory job cancelAt mapping.transfers
  let downloaded := mapping.transfers.map (·.key)
  ofAction (Action.record Log.debug Log.fetchSource
    ("Fetched " ++ bucket ++ ": " ++ Text.ofNat downloaded.length ++ " downloaded, " ++
      Text.ofNat mapping.skipped.length ++ " skipped"))
  return ⟨bucket, mapping.filenames, downloaded, mapping.skipped⟩

/-- An action that notes does what another one does, and notes the backends that are given for the
world that it runs in. -/
def Notes {α : Type} (noting : Noting α) (action : Action α) (asks : World → List Backend) : Prop :=
  ∀ world asked, noting.runIn world asked =
    ((action.runIn world).1, (action.runIn world).2, asked ++ asks world)

/-- What is asked after a result, if it is no failure. -/
def askedAfter {α : Type} (asked : α → List Backend) : Except Failure α → List Backend
  | .ok a => asked a
  | .error _ => []

section Steps

variable {α β : Type} {noting : Noting α} {action : Action α} {asks : World → List Backend}

theorem runIn_bind (noting : Noting α) (next : α → Noting β) (world : World)
    (asked : List Backend) : (noting >>= next).runIn world asked =
      match noting.runIn world asked with
      | (.ok a, after, asked) => (next a).runIn after asked
      | (.error failure, after, asked) => (.error failure, after, asked) := by
  unfold runIn ExceptT.run StateT.run
  simp only [bind, ExceptT.bind, ExceptT.mk, StateT.bind]
  rcases noting (world, asked) with ⟨result, after⟩
  cases result <;> rfl

theorem runIn_tryCatch (noting : Noting α) (handler : Failure → Noting α) (world : World)
    (asked : List Backend) : (tryCatch noting handler : Noting α).runIn world asked =
      match noting.runIn world asked with
      | (.ok a, after, asked) => (.ok a, after, asked)
      | (.error failure, after, asked) => (handler failure).runIn after asked := by
  unfold runIn ExceptT.run StateT.run
  simp only [tryCatch, tryCatchThe, MonadExceptOf.tryCatch, ExceptT.tryCatch, ExceptT.mk, bind,
    StateT.bind]
  rcases noting (world, asked) with ⟨result, after⟩
  cases result <;> rfl

namespace Notes

theorem ofAction (action : Action α) : Notes (ofAction action) action fun _ => [] := by
  intro world asked
  rw [List.append_nil]
  rfl

theorem throw (failure : Failure) :
    Notes (throw failure : Noting α) (throw failure) fun _ => [] := by
  intro world asked
  rw [List.append_nil]
  rfl

-- The answer of a factory is what the rest goes on with.
theorem ask {factory : Factory} {backend : Backend} {next : Except Error Client → Noting α}
    (h : Notes (next (factory backend)) action fun _ => []) :
    Notes (ask factory backend >>= next) action fun _ => [backend] := by
  intro world asked
  rw [runIn_bind, ← List.append_nil [backend], ← List.append_assoc]
  exact h world (asked ++ [backend])

-- Steps after which no factory is asked.
theorem bind {next : α → Noting β} {next' : α → Action β} (h : Notes noting action asks)
    (hnext : ∀ a, Notes (next a) (next' a) fun _ => []) :
    Notes (noting >>= next) (action >>= next') asks := by
  intro world asked
  rw [runIn_bind, h world asked, Action.runIn_bind]
  rcases action.runIn world with ⟨failure | a, after⟩
  · rfl
  · simp [hnext a after]

-- Steps before which no factory is asked; what is asked then depends on what they gave.
theorem after {next : α → Noting β} {next' : α → Action β} {asked : α → List Backend}
    (action : Action α) (hnext : ∀ a, Notes (next a) (next' a) fun _ => asked a) :
    Notes (Noting.ofAction action >>= next) (action >>= next') fun world =>
      askedAfter asked (action.runIn world).1 := by
  intro world before
  simp only [runIn_bind, Notes.ofAction action world before, Action.runIn_bind]
  rcases action.runIn world with ⟨failure | a, after⟩
  · simp [askedAfter]
  · simp [askedAfter, hnext a after]

theorem tryCatch {handler : Failure → Noting α} {handler' : Failure → Action α}
    (h : Notes noting action asks)
    (hhandler : ∀ failure, Notes (handler failure) (handler' failure) fun _ => []) :
    Notes (tryCatch noting handler) (tryCatch action handler') asks := by
  intro world asked
  rw [runIn_tryCatch, h world asked, Action.runIn_tryCatch]
  rcases action.runIn world with ⟨failure | a, after⟩
  · simp [hhandler failure after]
  · rfl

end Notes

-- With a client, the factory is asked once.
theorem notes_withClient (factory : Factory) (attempt : Text) (backend : Backend)
    (step : Client → Client.Step α) : Notes (withClient factory attempt backend step)
      (Fetch.withClient factory attempt backend step) fun _ => [backend] := by
  refine Notes.tryCatch (.ask ?_) fun _ => .throw _
  cases factory backend <;> exact .ofAction _

theorem notes_download (cloud : Cloud) (factory : Factory) (job : Job) (cancelAt : Option Nat)
    (transfers : List Transfer) : Notes (download cloud factory job cancelAt transfers)
      (Fetch.download cloud factory job cancelAt transfers) fun _ => [job.backend] := by
  have hconnecting := (notes_withClient factory "Unable to connect to" job.backend fun client =>
    client.connect cloud .s3).tryCatch fun failure =>
      (Notes.ofAction (discard transfers)).bind fun _ => .throw failure
  exact hconnecting.bind fun _ =>
    (Notes.ofAction (submit cloud job.backend.bucket transfers)).bind fun _ => .ofAction _

/-- The backends for whose clients a fetch asks: its own, if it opens a file. -/
def requests (job : Job) (world : World) : List Backend :=
  askedAfter (fun mapping => if mapping.transfers = [] then [] else [job.backend])
    ((mapKeys job .empty job.backend.keys).runIn world).1

theorem notes_fetch (cloud : Cloud) (factory : Factory) (cancelAt : Option Nat) (job : Job) :
    Notes (fetch cloud factory cancelAt job) (Fetch.fetch cloud factory cancelAt job)
      (requests job) := by
  refine Notes.after _ fun mapping => ?_
  by_cases hnone : mapping.transfers = []
  · simp only [hnone, ne_eq, not_true, if_false, if_true]
    exact (Notes.ofAction _).bind fun _ => .ofAction (pure _)
  · simp only [hnone, ne_eq, not_false_iff, if_true, if_false]
    exact .after _ fun _ => (notes_download cloud factory job cancelAt mapping.transfers).bind
      fun _ => (Notes.ofAction _).bind fun _ => .ofAction (pure _)

end Steps

end Noting

/-- **A fetch that succeeds accounts for its keys, and asks for a client once if it downloads
anything and never otherwise.** -/
theorem fetch_accounted {cloud : Cloud} {factory : Factory} {cancelAt : Option Nat} {job : Job}
    {world after : World} {outcome : Outcome}
    (h : (fetch cloud factory cancelAt job).runIn world = (.ok outcome, after)) :
    Accounts job after.files outcome ∧
      (Noting.fetch cloud factory cancelAt job).runIn world [] =
        (.ok outcome, after, if outcome.downloaded = [] then [] else [job.backend]) := by
  refine ⟨fetch_accounts h, ?_⟩
  obtain ⟨mapping, between, hkeys, rfl⟩ := fetch_outcome h
  have hrequests : Noting.requests job world =
      if (mapping.outcome job).downloaded = [] then [] else [job.backend] := by
    simp [Noting.requests, Noting.askedAfter, hkeys, Mapping.outcome]
  rw [Noting.notes_fetch cloud factory cancelAt job world [], h, hrequests]
  rfl

/-- Of keys that are repeated and share paths, the later ones are passed over. -/
theorem accounted_of_repeated_keys :
    let job := sampleJob ["a", "/a", "b", "a"] false
    ∃ outcome after, (fetch spellingCloud .standard none job).runIn sampleWorld =
        (.ok outcome, after) ∧
      outcome.downloaded = ["a", "b"] ∧ outcome.skipped = ["/a", "a"] ∧
      Accounts job after.files outcome ∧
      (Noting.fetch spellingCloud .standard none job).runIn sampleWorld [] =
        (.ok outcome, after, [job.backend]) := by
  intro job
  have hresult : ((fetch spellingCloud .standard none job).runIn sampleWorld).1 =
      .ok ⟨"b", job.filenames, ["a", "b"], ["/a", "a"]⟩ := by decide +kernel
  rcases hrun : (fetch spellingCloud .standard none job).runIn sampleWorld with ⟨result, after⟩
  rw [hrun] at hresult
  obtain rfl : result = _ := hresult
  obtain ⟨haccounts, hasked⟩ := fetch_accounted hrun
  exact ⟨_, after, rfl, rfl, rfl, haccounts, hasked⟩

end StateOwnership.Fetch
