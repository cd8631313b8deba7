import StateOwnership.Json.Literal

/-!
# State documents

A state document lists modules, a module lists resources and a resource lists instances. Both
supported versions of the format are read into these types.
-/

namespace StateOwnership.State

/-- One instance of a resource. The attributes mean something only if the instance is current. -/
structure Instance where
  indexKey : Json
  isCurrent : Bool
  attributes : Json
  deriving DecidableEq

structure Resource where
  mode : Text
  type : Text
  name : Text
  instances : List Instance
  deriving DecidableEq

/-- The resources at one module address; the root module has the empty address. -/
structure Module where
  address : Text
  resources : List Resource
  deriving DecidableEq

/-- A managed resource instance found in a state document. -/
structure Descriptor where
  id : Text
  arn : Text
  resourceType : Text
  address : Text
  deriving DecidableEq, Repr

/-- The mode of resources that the state file owns. -/
def managedMode : Text := "managed"

/-- The mode of resources that are only looked up. -/
def dataMode : Text := "data"

/-- The bracket after a resource's name that tells its instances apart. A number stands as it is,
anything else between quotes; a truth value counts as a number. -/
def indexSuffix : Json → Text
  | .null => []
  | .int i => "[" ++ Text.ofInt i ++ "]"
  | .bool b => "[" ++ Json.literal (.bool b) ++ "]"
  | key => "[\"" ++ Json.inSentence key ++ "\"]"

/-- The address of an instance: the module, the mode unless it is the managed one, the type and the
name, joined by dots, and the bracket with the index key. -/
def resourceAddress (module mode type name : Text) (indexKey : Json) : Text :=
  let here : Text := type ++ "." ++ name
  let here : Text := if mode = managedMode then here else mode ++ "." ++ here
  let here : Text := here ++ indexSuffix indexKey
  if module = [] then here else module ++ "." ++ here

def Resource.addressOf (resource : Resource) (module : Text) (indexKey : Json) : Text :=
  resourceAddress module resource.mode resource.type resource.name indexKey

end StateOwnership.State
