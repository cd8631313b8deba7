import StateOwnership.Cloud.Client

/-!
# Connecting for a backend

A factory makes the client of a backend. An error about fetching that names no bucket is reported
again with the backend's bucket, under words that say what was attempted.
-/

namespace StateOwnership.Fetch

/-- How the clients of backends are made. -/
abbrev Factory := Backend → Except Error Client

/-- The factory that takes a backend's own settings. -/
def Factory.standard : Factory := fun backend => .ok (Client.ofBackend backend)

def namingBucket (attempt bucket : Text) (e : Error) : Error :=
  Error.about (.fetch (some bucket) none) (attempt ++ " " ++ bucket ++ ": " ++ e.message) e.details

/-- A failure with the bucket named, if it is an error about fetching that names none. -/
def withBucket (attempt bucket : Text) : Failure → Failure
  | .error e =>
    if e.isFetch && e.bucket?.isNone then .error (namingBucket attempt bucket e) else .error e
  | failure => failure

def withClient {α : Type} (factory : Factory) (attempt : Text) (backend : Backend)
    (step : Client → Client.Step α) : Action α :=
  tryCatch
    (match factory backend with
      | .error e => Action.failWith e
      | .ok client => do
        Action.record Log.debug Log.clientSource client.greeting
        Action.ofClient (step client))
    fun failure => throw (withBucket attempt backend.bucket failure)

end StateOwnership.Fetch
