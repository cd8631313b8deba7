import StateOwnership.Text.Search
import StateOwnership.OrderedMap

/-!
# Configurations

A configuration lists the backends that hold state files, in order of increasing priority, and
says where their local copies go and how object keys become local paths.
-/

namespace StateOwnership

/-- A literal replacement in object keys. -/
structure Substitution where
  old : Text
  new : Text
  deriving DecidableEq, Repr

def Substitution.apply (s : Substitution) (key : Text) : Text :=
  Text.replace s.old s.new key

/-- What all backends share. -/
structure FetchOptions where
  substitutions : List Substitution
  overwrite : Bool
  arnlessTypes : List Text
  deriving DecidableEq, Repr

def FetchOptions.standard : FetchOptions :=
  ⟨[], false, []⟩

/-- A key with the substitutions applied one after the other. -/
def FetchOptions.substitute (options : FetchOptions) (key : Text) : Text :=
  options.substitutions.foldl (fun key s => s.apply key) key

/-- A bucket, the keys of the state files in it, and how to connect to it. -/
structure Backend where
  bucket : Text
  keys : List Text
  region : Text
  roleArn : Text
  externalId : Text
  sessionName : Text
  deriving DecidableEq, Repr

/-- The name by which an object is known as an owner of resources. -/
def Backend.reference (backend : Backend) (key : Text) : Text :=
  "arn:aws:s3:::" ++ backend.bucket ++ "/" ++ key

/-- A configuration. Options that are not set are the standard ones. -/
structure Config where
  destination : Text
  options : Option FetchOptions
  backends : List Backend
  deriving DecidableEq, Repr

def Config.effectiveOptions (config : Config) : FetchOptions :=
  config.options.getD .standard

end StateOwnership
