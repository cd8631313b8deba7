import StateOwnership.Error
import StateOwnership.Json.Reader
import StateOwnership.FileTree.Operations

/-!
# Faults of configurations

Everything that is wrong with a configuration, and how it is reported.
-/

namespace StateOwnership.Config

inductive Declared where
  | text
  | flag
  | list
  | object
  deriving DecidableEq, Repr

def Declared.name : Declared → Text
  | .text => "str"
  | .flag => "bool"
  | .list => "list"
  | .object => "dict"

inductive Fault where
  /-- A field holds a value of another type than the declared one. -/
  | mistyped (field : Text) (declared : Declared) (found : Json)
  | noDestination
  | noBackends
  /-- The backend at a position, from zero, has no bucket. -/
  | noBucket (position : Nat)
  | noKeys (bucket : Text)
  | unreadable (path : Text) (refusal : FileTree.Refusal)
  | notDocument (path : Text) (fault : Json.Fault)
  deriving DecidableEq

namespace Fault

def message : Fault → Text
  | .mistyped field declared found =>
    "Field '" ++ field ++ "' must be of type " ++ declared.name ++ ", got " ++ found.kind
  | .noDestination => "Destination field is empty"
  | .noBackends => "s3 field is empty"
  | .noBucket position => "Backend #" ++ Text.ofNat position ++ " has an empty bucket"
  | .noKeys bucket => "Backend '" ++ bucket ++ "' has no keys"
  | .unreadable _ refusal => "Unable to read configuration file: " ++ refusal.describe
  | .notDocument _ fault => "Configuration file is not valid JSON: " ++ fault.describe

def field? : Fault → Option Text
  | .mistyped field _ _ => some field
  | .noDestination => some "destination"
  | .noBackends => some "s3"
  | .noBucket _ => some "s3.bucket"
  | .noKeys _ => some "s3.keys"
  | .unreadable _ _ => none
  | .notDocument _ _ => none

/-- What a fault tells besides its message and field. -/
def details : Fault → OrderedMap Text Json
  | .noKeys bucket => (∅ : OrderedMap Text Json).insert "bucket" (.str bucket)
  | .unreadable path _ => (∅ : OrderedMap Text Json).insert "path" (.str path)
  | .notDocument path _ => (∅ : OrderedMap Text Json).insert "path" (.str path)
  | _ => ∅

def toError (fault : Fault) : Error :=
  Error.about (.configuration fault.field?) fault.message fault.details

end Fault
end StateOwnership.Config
