import StateOwnership.Config.File
import StateOwnership.Fetch.Run

/-!
# Caches

A cache holds local copies of the state files of a configuration, and remembers which object each
path is a copy of.
-/

namespace StateOwnership

/-- A configuration, how it is pulled, and the owner of every path of the last pull. -/
structure Cache where
  config : Config
  /-- Whether pulling an invalid configuration fails. -/
  strict : Bool
  /-- How many backends are fetched at a time, at least one. -/
  workers : Nat
  filenames : OrderedMap Text Text
  deriving DecidableEq

namespace Cache

def make (config : Config) (strict : Bool) (workers : Int) : Cache :=
  ⟨config, strict, max 1 workers.toNat, ∅⟩

def describe (cache : Cache) : Text :=
  "BackendRegistry(destination='" ++ cache.config.destination ++ "', backends=" ++
    Text.ofNat cache.config.backends.length ++ ", max_workers=" ++ Text.ofNat cache.workers ++ ")"

def job (cache : Cache) (backend : Backend) : Fetch.Job :=
  ⟨backend, cache.config.destination, cache.config.effectiveOptions⟩

def jobs (cache : Cache) : List Fetch.Job :=
  cache.config.backends.map cache.job

/-- Notes the owner of the path of every key of a fetch, one after the other. -/
def noteOwners (filenames : OrderedMap Text Text) (job : Fetch.Job) : OrderedMap Text Text :=
  job.backend.keys.foldl
    (fun filenames key => filenames.insert (job.localPath key) (job.backend.reference key))
    filenames

/-- The owner of every path, from the configuration alone. -/
def configured (cache : Cache) : OrderedMap Text Text :=
  cache.jobs.foldl noteOwners ∅

/-- A computation that changes a cache and the world and may fail. -/
abbrev Step (α : Type) := ExceptT Failure (StateT Cache (StateM World)) α

namespace Step

def ofAction {α : Type} (action : Action α) : Step α := fun cache world =>
  match action.runIn world with
  | (result, world) => ((result, cache), world)

def runOn {α : Type} (step : Step α) (cache : Cache) (world : World) :
    Except Failure α × Cache × World :=
  match step.run.run cache world with
  | ((result, cache), world) => (result, cache, world)

end Step

/-- Validates the configuration, which sets its options. -/
def validate : Step Unit := do
  let config ← Step.ofAction (← get).config.validated
  modify fun cache => { cache with config := config }

/-- Forgets the owners of paths and takes new ones from the configuration alone. -/
def mapConfigured : Step (OrderedMap Text Text) := do
  validate
  modify fun cache => { cache with filenames := cache.configured }
  return (← get).filenames

/-- The name of the identity that each bucket is reached as, for backends in order. -/
def identities (cloud : Cloud) (factory : Fetch.Factory) :
    OrderedMap Text Text → List Backend → Action (OrderedMap Text Text)
  | known, [] => return known
  | known, backend :: rest => do
    let arn ← Fetch.withClient factory "Credential check failed for" backend fun client =>
      client.validateCredentials cloud
    identities cloud factory (known.insert backend.bucket arn) rest

def checkCredentials (cloud : Cloud) (factory : Fetch.Factory) : Step (OrderedMap Text Text) := do
  validate
  Step.ofAction (identities cloud factory ∅ (← get).config.backends)

end Cache
end StateOwnership
