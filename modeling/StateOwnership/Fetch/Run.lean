import StateOwnership.Fetch.Basic
import StateOwnership.Fetch.Connect
import StateOwnership.Fetch.Transfer

/-!
# Running a fetch

A fetch looks at the keys in order. It makes the directory of each copy and notes the owner of its
path; a copy that is there is passed over unless copies are overwritten, and the file of any other
is opened at once. Then all opened files are filled in one batch.

**The copies of a batch that fails are removed, except those that are complete.** A failure before
the batch begins removes what was opened only if the failure is that of an open.
-/

namespace StateOwnership.Fetch

/-! ## 1. Errors -/

def keyError (job : Job) (key message : Text) : Error :=
  Error.about (.fetch (some job.backend.bucket) (some key)) message ∅

def directoryError (job : Job) (key directory : Text) (refusal : FileTree.Refusal) : Error :=
  keyError job key ("Unable to create directory " ++ directory ++ ": " ++ refusal.describe)

def openError (job : Job) (key path : Text) (refusal : FileTree.Refusal) : Error :=
  keyError job key ("Unable to open " ++ path ++ " for writing: " ++ refusal.describe)

def objectName (bucket key : Text) : Text :=
  "s3://" ++ bucket ++ "/" ++ key

def transferError (job : Job) (key : Text) (e : ServiceError) : Error :=
  keyError job key
    ("Failed to download " ++ objectName job.backend.bucket key ++ ": " ++ e.describe)

def cancelledError (job : Job) : Error :=
  Error.about (.fetch (some job.backend.bucket) none)
    ("Fetch from " ++ job.backend.bucket ++ " was cancelled") ∅

/-! ## 2. Looking at keys -/

/-- What has come of the keys looked at so far. -/
structure Mapping where
  filenames : OrderedMap Text Text
  skipped : List Text
  transfers : List Transfer
  deriving DecidableEq

def Mapping.empty : Mapping := ⟨∅, [], []⟩

/-- Makes the directory of a copy. What was made stays, also on failure. -/
def makeDirectory (job : Job) (key directory : Text) : Action Unit := do
  match (← Action.files).makeDirectories directory with
  | (result, files) =>
    Action.setFiles files
    match result with
    | .ok _ => return
    | .error (.refused refusal) => Action.failWith (directoryError job key directory refusal)
    | .error (.path fault) => throw (Failure.path fault)

/-- Opens the file of a copy. The files opened before are removed if the file tree refuses. -/
def openCopy (job : Job) (opened : List Transfer) (key path : Text) : Action Transfer := do
  match (← Action.files).openFile path true with
  | .ok (place, files) =>
    Action.setFiles files
    return ⟨key, path, place, none⟩
  | .error (.refused refusal) =>
    discard opened
    Action.failWith (openError job key path refusal)
  | .error (.path fault) => throw (Failure.path fault)

def mapKey (job : Job) (mapping : Mapping) (key : Text) : Action Mapping := do
  let copy := job.localCopy key
  makeDirectory job key copy.directory
  -- The owner is noted whether the copy is fetched or passed over.
  let filenames := mapping.filenames.insert copy.path (job.backend.reference key)
  if (← Action.files).pathExists copy.path && !job.options.overwrite then
    Action.record Log.debug Log.fetchSource
      (copy.path ++ " already exists, skipping " ++ objectName job.backend.bucket key)
    return ⟨filenames, mapping.skipped ++ [key], mapping.transfers⟩
  else
    let transfer ← openCopy job mapping.transfers key copy.path
    return ⟨filenames, mapping.skipped, mapping.transfers ++ [transfer]⟩

def mapKeys (job : Job) : Mapping → List Text → Action Mapping
  | mapping, [] => return mapping
  | mapping, key :: rest => do
    mapKeys job (← mapKey job mapping key) rest

/-! ## 3. The batch -/

/-- Submits transfers in order, up to the first that is refused. -/
def submit (cloud : Cloud) (bucket : Text) : List Transfer →
    Action (List Transfer × Option ServiceError)
  | [] => return ([], none)
  | t :: rest => do
    Action.call (.download bucket t.key)
    let delivery := cloud.transfer bucket t.key
    match delivery.atSubmission, delivery.fault with
    | true, some e => return (t :: rest, some e)
    | _, _ =>
      Action.changeFiles (·.overwriteStart t.place (writtenAtOnce delivery.body))
      let (sent, refused) ← submit cloud bucket rest
      return ({ t with delivery := some delivery } :: sent, refused)

/-- Waits until all transfers are done. The result says whether that came before cancellation, and
the number of waits so far. -/
def waits (cancelAt : Nat) (transfers : List Transfer) (ticks : Nat) : Bool × Nat :=
  if transfers.all (·.isDone ticks) then (true, ticks)
  else if h : cancelAt ≤ ticks + 1 then (false, ticks + 1)
  else waits cancelAt transfers (ticks + 1)
termination_by cancelAt - ticks
decreasing_by omega

/-- Waits for transfers if they may be cancelled, which happens at the wait with number
`cancelAt`. -/
def await (job : Job) (cancelAt : Option Nat) (transfers : List Transfer) : Action Unit := do
  match cancelAt with
  | none => return
  | some cancelAt =>
    let (finished, ticks) := waits cancelAt transfers (← Action.ticks)
    modify fun world => { world with ticks := ticks }
    if finished then return else Action.failWith (cancelledError job)

/-- Asks for the results of transfers in order, up to the first that failed. -/
def collect (job : Job) : List Transfer → Action Unit
  | [] => return
  | t :: rest =>
    match t.delivery.bind (·.fault) with
    | none => collect job rest
    | some .interrupted => throw Failure.interrupted
    | some e => Action.failWith (transferError job t.key e)

/-- Fills the files of transfers that were submitted, as far as they were. -/
def finish (job : Job) (cancelAt : Option Nat) (sent : List Transfer)
    (refused : Option ServiceError) : Action Unit := do
  match refused with
  | some e => throw (Failure.service e)
  | none =>
    await job cancelAt sent
    collect job sent

def download (cloud : Cloud) (factory : Factory) (job : Job) (cancelAt : Option Nat)
    (transfers : List Transfer) : Action Unit := do
  let connecting := withClient factory "Unable to connect to" job.backend fun client =>
    client.connect cloud .s3
  -- Nothing is submitted yet, so no copy is complete and all are removed.
  let _ ← Action.onFailure connecting (discard transfers)
  let (sent, refused) ← submit cloud job.backend.bucket transfers
  -- The files are closed last, on success and on failure.
  Action.andFinally (Action.onFailure (finish job cancelAt sent refused) (discard sent))
    (closeAll sent)

/-! ## 4. The whole fetch -/

def fetch (cloud : Cloud) (factory : Factory) (cancelAt : Option Nat) (job : Job) :
    Action Outcome := do
  let mapping ← mapKeys job .empty job.backend.keys
  let bucket := job.backend.bucket
  if mapping.transfers ≠ [] then
    Action.record Log.info Log.fetchSource
      ("Downloading " ++ Text.ofNat mapping.transfers.length ++ " state file(s) from " ++ bucket)
    download cloud factory job cancelAt mapping.transfers
  let downloaded := mapping.transfers.map (·.key)
  Action.record Log.debug Log.fetchSource
    ("Fetched " ++ bucket ++ ": " ++ Text.ofNat downloaded.length ++ " downloaded, " ++
      Text.ofNat mapping.skipped.length ++ " skipped")
  return ⟨bucket, mapping.filenames, downloaded, mapping.skipped⟩

end StateOwnership.Fetch
