import StateOwnership.Config.Basic
import StateOwnership.Path

/-!
# Fetches

A fetch makes local copies of the objects of one backend, below a destination directory. Where a
copy goes depends on the bucket and the substituted key alone.
-/

namespace StateOwnership.Fetch

/-- The backend to fetch from, the directory to fetch to, and the options in force. -/
structure Job where
  backend : Backend
  destination : Text
  options : FetchOptions
  deriving DecidableEq, Repr

/-- Where the copy of an object goes: its directory and its path. -/
structure LocalCopy where
  directory : Text
  path : Text
  deriving DecidableEq, Repr

/-- The place of a substituted key below a bucket's directory. Slashes that the key starts with do
not lead out of the bucket. -/
def place (destination bucket key : Text) : LocalCopy :=
  let inner := Text.stripLeft Path.slash (Path.directory key)
  let directory := Path.join (Path.join destination bucket) inner
  ⟨directory, Path.join directory (Path.fileName key)⟩

def Job.localCopy (job : Job) (key : Text) : LocalCopy :=
  place job.destination job.backend.bucket (job.options.substitute key)

def Job.localPath (job : Job) (key : Text) : Text :=
  (job.localCopy key).path

/-- The owner of every path of a job, from the configuration alone. -/
def Job.filenames (job : Job) : OrderedMap Text Text :=
  OrderedMap.ofList (job.backend.keys.map fun key =>
    (job.localPath key, job.backend.reference key))

def Job.describe (job : Job) : Text :=
  let overwrite : Text := if job.options.overwrite then Text.ofString "True" else "False"
  "S3Fetcher(bucket='" ++ job.backend.bucket ++ "', keys=" ++
    Text.ofNat job.backend.keys.length ++ ", overwrite=" ++ overwrite ++ ")"

/-- What a fetch has done: the owner of every path, and the keys that were downloaded and those
that were passed over because their copy was there. -/
structure Outcome where
  bucket : Text
  filenames : OrderedMap Text Text
  downloaded : List Text
  skipped : List Text
  deriving DecidableEq

end StateOwnership.Fetch
