import StateOwnership.Cache.Pull
import StateOwnership.Index.Builder
import StateOwnership.Index.Inventory
import StateOwnership.State.File

/-!
# Loading

Loading decodes the copies of a cache in order and claims their resources for their owners. A copy
that cannot be decoded is passed over and contributes nothing.
-/

namespace StateOwnership.Cache

/-- What has come of the copies so far. -/
structure Loading where
  builder : Index.Builder
  filesLoaded : List Text
  skipped : OrderedMap Text Text
  deriving DecidableEq

namespace Loading

def none : Loading := ⟨∅, [], ∅⟩

def add (loading : Loading) (path owner : Text) (ids : List Text) : Loading :=
  { loading with
    builder := loading.builder.claimAll ids owner
    filesLoaded := loading.filesLoaded ++ [path] }

def skip (loading : Loading) (path message : Text) : Loading :=
  { loading with skipped := loading.skipped.insert path message }

def inventory (loading : Loading) (now : DateTime) : Inventory :=
  { index := loading.builder.build
    filesLoaded := loading.filesLoaded
    skipped := loading.skipped
    collisions := loading.builder.overwritten
    loadTime := now }

end Loading

def recordTakeovers : List Index.Takeover → Action Unit
  | [] => return
  | t :: rest => do
    Action.record Log.debug Log.indexSource t.describe
    recordTakeovers rest

def loadCopy (arnless : List Text) (loading : Loading) (path owner : Text) : Action Loading := do
  let result ← ExceptT.lift (State.loadFile arnless path).outcome
  match result with
  | .ok descriptors =>
    let after := loading.add path owner (descriptors.map (·.id))
    recordTakeovers (after.builder.takeovers.drop loading.builder.takeovers.length)
    return after
  | .error (.error e) =>
    Action.record Log.warning Log.registrySource
      ("Skipping " ++ path ++ " (" ++ owner ++ "): " ++ e.message)
    return loading.skip path e.message
  | .error failure => throw failure

def loadCopies (arnless : List Text) : Loading → List (Text × Text) → Action Loading
  | loading, [] => return loading
  | loading, (path, owner) :: rest => do
    loadCopies arnless (← loadCopy arnless loading path owner) rest

def load (now : DateTime) (cache : Cache) : Action Inventory := do
  let loading ← loadCopies cache.config.effectiveOptions.arnlessTypes .none cache.filenames.entries
  let inventory := loading.inventory now
  Action.record Log.info Log.registrySource
    ("Indexed " ++ Text.ofNat inventory.index.size ++ " resource(s) from " ++
      Text.ofNat inventory.filesLoaded.length ++ " state file(s), " ++
      Text.ofNat inventory.skippedCount ++ " skipped")
  return inventory

def buildIndex (cloud : Cloud) (factory : Fetch.Factory) (cancelAt : Option Nat)
    (schedule : Schedule) (now : DateTime) : Step Inventory := do
  let _ ← pull cloud factory cancelAt schedule
  Step.ofAction (load now (← get))

end StateOwnership.Cache
