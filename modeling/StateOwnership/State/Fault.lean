import StateOwnership.Error
import StateOwnership.Json.Reader

/-!
# Faults of state documents

Everything that keeps a state document from being decoded, and how it is reported.
-/

namespace StateOwnership.State

inductive Fault where
  | document (fault : Json.Fault)
  | notObject
  | version (found : Json)
  | fieldNotList (field : Text)
  | fieldNotObject (field : Text)
  | fieldNotText (field : Text) (found : Json)
  /-- The number in a resource key is no decimal number. -/
  | index (fault : Text.NumeralFault)
  | attributeDocument (fault : Json.Fault) (address : Text)
  | attributesNotObject (found : Json) (address : Text)
  /-- There is no usable identifier among the attributes. -/
  | noId (address : Text)
  | arnNotText (address : Text)
  deriving DecidableEq

namespace Fault

def message : Fault → Text
  | .document fault => "State document is not valid JSON: " ++ fault.describe
  | .notObject => "State document must be a JSON object"
  | .version found => "Unsupported state version: " ++ found.literal
  | .fieldNotList field => "State field '" ++ field ++ "' must be a list"
  | .fieldNotObject field => "State field '" ++ field ++ "' must be an object"
  | .fieldNotText field found =>
    "State field '" ++ field ++ "' must be a string, got " ++ found.kind
  | .index fault => fault.describe
  | .attributeDocument fault _ => "Malformed attribute JSON: " ++ fault.describe
  | .attributesNotObject found _ => "Attributes must be an object, got " ++ found.kind
  | .noId _ => "Resource has no 'id' attribute"
  | .arnNotText _ => "Attribute 'arn' must be a string"

def address? : Fault → Option Text
  | .attributeDocument _ address => some address
  | .attributesNotObject _ address => some address
  | .noId address => some address
  | .arnNotText address => some address
  | _ => none

def supportedVersions : List Json := [.int 3, .int 4]

/-- What a fault tells besides its message and address. -/
def details : Fault → OrderedMap Text Json
  | .version _ => (∅ : OrderedMap Text Json).insert "supported" (.arr supportedVersions)
  | _ => ∅

/-- A fault as an error about the state file at `path`, which is noted last. -/
def toError (fault : Fault) (path : Option Text) : Error :=
  let found := Error.about (.decode none fault.address?) fault.message fault.details
  match path with
  | none => found
  | some path =>
    ⟨.decode (some path) fault.address?, found.message, found.details.insert "path" (.str path)⟩

end Fault
end StateOwnership.State
