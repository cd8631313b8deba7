import StateOwnership.Cache.Basic

/-!
# Pulling

A pull fetches every backend. With one worker the backends are fetched in order up to the first that
fails. With more, a schedule says in which order they end and which of them are held back: the first
error about fetching cancels those that have not started. What the others have brought is merged in
the order of the configuration.

Fetches of several workers are run whole, one after another in the order in which they end. The file
operations of different backends do not interleave here, and a fetch finds what those that end before
it have done and nothing of the others.
-/

namespace StateOwnership.Cache

abbrev Fetched := Except Failure Fetch.Outcome

/-- A fetch of a backend as a change of the world. -/
abbrev Run := Fetch.Job → StateM World Fetched

/-- How far a pull has come: what the fetches have done, the owner of every path they have dealt
with, and why the pull fails, if it does. -/
structure Progress where
  outcomes : List Fetch.Outcome
  filenames : OrderedMap Text Text
  failure : Option Failure
  deriving DecidableEq

namespace Progress

def none : Progress := ⟨[], ∅, .none⟩

def add (progress : Progress) (outcome : Fetch.Outcome) : Progress :=
  { progress with
    outcomes := progress.outcomes ++ [outcome]
    filenames := progress.filenames.union outcome.filenames }

end Progress

/-! ## 1. One after the other -/

/-- Fetches in order up to the first failure. -/
def pullInOrder (run : Run) : Progress → List Fetch.Job → StateM World Progress
  | progress, [] => pure progress
  | progress, job :: rest => do
    match ← run job with
    | .ok outcome => pullInOrder run (progress.add outcome) rest
    | .error failure => pure { progress with failure := some failure }

/-! ## 2. Several at a time -/

/-- The order in which the fetches end, by position, and the positions whose fetches are held back,
so that they are cancelled if the first error about fetching comes before they have to start. Each
fetch is run whole where its position stands in the order: file operations of different backends
never interleave. -/
structure Schedule where
  order : List Nat
  withheld : List Nat
  deriving DecidableEq, Repr

/-- The schedule in which `count` fetches all start at once and end in order. -/
def Schedule.inOrder (count : Nat) : Schedule :=
  ⟨List.range count, []⟩

/-- What has been noticed of fetches that run at the same time. -/
structure Watch where
  outcomes : List (Nat × Fetch.Outcome)
  errors : List (Nat × Error)
  /-- The positions whose fetches do not start any more. -/
  cancelled : List Nat
  /-- A failure that is no error about fetching ends the pull at once. -/
  escaped : Option Failure
  deriving DecidableEq

def Watch.none : Watch := ⟨[], [], [], .none⟩

/-- The positions that are cancelled once an error about fetching is noticed at a position. Fetches
start in the order of their positions, so only those can be held back that stand behind every
position whose fetch has ended. Every fetch has started or is cancelled after the first error, and
a second one cancels nothing more. -/
def Watch.stopped (watch : Watch) (withheld : List Nat) (position : Nat) : List Nat :=
  if watch.errors = [] then
    withheld.filter fun other => position < other ∧ ∀ entry ∈ watch.outcomes, entry.1 < other
  else watch.cancelled

def Watch.notice (watch : Watch) (withheld : List Nat) (position : Nat) (result : Fetched) :
    Watch :=
  if watch.escaped.isSome then watch
  else
    match result with
    | .ok outcome => { watch with outcomes := Entries.put position outcome watch.outcomes }
    | .error (.error e) =>
      if e.isFetch then
        { watch with
          errors := Entries.put position e watch.errors
          cancelled := watch.stopped withheld position }
      else { watch with escaped := some (.error e) }
    | .error failure => { watch with escaped := some failure }

def Watch.logLine? (watch : Watch) (bucket : Text) (result : Fetched) : Option Text :=
  if watch.escaped.isSome then .none
  else
    match result with
    | .error (.error e) =>
      if e.isFetch then some ("Backend " ++ bucket ++ " failed: " ++ e.describe) else .none
    | _ => .none

def logFailure : Option Text → StateM World Unit
  | .none => pure ()
  | some line =>
    modify fun world => world.record ⟨Log.error, Log.registrySource, line⟩

/-- Runs fetches whole, one after another in the order in which they end. A position that was
cancelled is passed over. -/
def watchAll (run : Run) (jobs : List Fetch.Job) (withheld : List Nat) : Watch → List Nat →
    StateM World Watch
  | watch, [] => pure watch
  | watch, position :: rest =>
    match jobs[position]? with
    | .none => watchAll run jobs withheld watch rest
    | some job =>
      if position ∈ watch.cancelled then watchAll run jobs withheld watch rest
      else do
        let result ← run job
        logFailure (watch.logLine? job.backend.bucket result)
        watchAll run jobs withheld (watch.notice withheld position result) rest

/-- Merges what was noticed at the given positions, up to the first error. -/
def Watch.merge (watch : Watch) : Progress → List Nat → Progress
  | progress, [] => progress
  | progress, position :: rest =>
    match Entries.get? position watch.errors with
    | some e => { progress with failure := some (.error e) }
    | .none =>
      match Entries.get? position watch.outcomes with
      | some outcome => watch.merge (progress.add outcome) rest
      | .none => watch.merge progress rest

def pullTogether (run : Run) (schedule : Schedule) (jobs : List Fetch.Job) :
    StateM World Progress := do
  let watch ← watchAll run jobs schedule.withheld .none schedule.order
  match watch.escaped with
  -- The merge is not reached, so no owner is known, though copies may be there.
  | some failure => pure { Progress.none with failure := some failure }
  | .none => pure (watch.merge .none (List.range jobs.length))

/-! ## 3. The whole pull -/

def pullAll (run : Run) (workers : Nat) (schedule : Schedule) (jobs : List Fetch.Job) :
    StateM World Progress :=
  if workers = 1 ∨ jobs.length = 1 then pullInOrder run .none jobs
  else pullTogether run schedule jobs

def record (level : Log.Level) (message : Text) : Step Unit :=
  Step.ofAction (Action.record level Log.registrySource message)

def pullValid (run : Run) (schedule : Schedule) : Step (List Fetch.Outcome) := do
  validate
  modify fun cache => { cache with filenames := ∅ }
  let cache ← get
  record Log.info
    ("Pulling state from " ++ Text.ofNat cache.config.backends.length ++ " backend(s)")
  let progress ← Step.ofAction (ExceptT.lift (pullAll run cache.workers schedule cache.jobs))
  modify fun cache => { cache with filenames := progress.filenames }
  match progress.failure with
  | some failure => throw failure
  | .none =>
    record Log.info ("Pulled " ++ Text.ofNat progress.filenames.size ++ " state file(s)")
    return progress.outcomes

/-- Pulls. A cache that is not strict passes over an invalid configuration. -/
def pull (cloud : Cloud) (factory : Fetch.Factory) (cancelAt : Option Nat) (schedule : Schedule) :
    Step (List Fetch.Outcome) := do
  let cache ← get
  match cache.config.validate with
  | .error fault =>
    if cache.strict then throw (Failure.error fault.toError)
    else
      record Log.warning ("Skipping pull, invalid configuration: " ++ fault.toError.describe)
      return []
  | .ok _ => pullValid (fun job => (Fetch.fetch cloud factory cancelAt job).outcome) schedule

end StateOwnership.Cache
