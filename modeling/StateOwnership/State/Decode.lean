import StateOwnership.State.Current
import StateOwnership.State.Legacy

/-!
# Decoding state documents

A document is decoded in two phases. Its structure is read into modules; then the current managed
instances are extracted, module by module. The first fault ends the decoding.
-/

namespace StateOwnership.State

/-- The types that are kept though they have no resource name (`arn`). -/
def arnlessTypes : List Text :=
  ["aws_iam_access_key", "aws_route53_record", "aws_route53_zone"]

/-- The members of an instance's attributes, which may be written as a document of their own. -/
def attributeMembers (address : Text) (attributes : Json) : Except Fault (List (Text × Json)) :=
  match attributes with
  | .obj members => .ok members
  | .str document =>
    match Json.ofText document with
    | .error fault => .error (.attributeDocument fault address)
    | .ok (.obj members) => .ok members
    | .ok other => .error (.attributesNotObject other address)
  | other => .error (.attributesNotObject other address)

/-- The identifier among attributes, which must be a text that is not empty. -/
def idOf (address : Text) (members : List (Text × Json)) : Except Fault Text :=
  match member? "id" members with
  | some (.str (c :: rest)) => .ok (c :: rest)
  | _ => .error (.noId address)

/-- The resource name among attributes. Without one the instance is kept, under an empty name, if
its type is among the `allowed` ones, and passed over otherwise. -/
def arnOf (allowed : List Text) (type address : Text) (members : List (Text × Json)) :
    Except Fault (Option Text) :=
  match member? "arn" members with
  | none | some .null => .ok (if allowed.contains type then some [] else none)
  | some (.str arn) => .ok (some arn)
  | some _ => .error (.arnNotText address)

/-- The descriptor of a current managed instance, unless it is passed over. -/
def describe (allowed : List Text) (type address : Text) (attributes : Json) :
    Except Fault (Option Descriptor) := do
  let members ← attributeMembers address attributes
  let id ← idOf address members
  let arn ← arnOf allowed type address members
  return arn.map fun arn => ⟨id, arn, type, address⟩

/-- A current managed instance: its type, address and attributes. -/
structure Candidate where
  type : Text
  address : Text
  attributes : Json
  deriving DecidableEq

def Resource.candidates (module : Text) (resource : Resource) : List Candidate :=
  if resource.mode = managedMode then
    (resource.instances.filter (·.isCurrent)).map fun i =>
      ⟨resource.type, resource.addressOf module i.indexKey, i.attributes⟩
  else []

/-- The current managed instances of modules, in document order within each module. -/
def candidates (modules : List Module) : List Candidate :=
  modules.flatMap fun module => module.resources.flatMap (·.candidates module.address)

def extract (allowed : List Text) (modules : List Module) : Except Fault (List Descriptor) := do
  let found ← (candidates modules).mapM fun c => describe allowed c.type c.address c.attributes
  return found.filterMap id

/-- The modules of a document of either version. -/
def modulesOf (document : Json) : Except Fault (List Module) :=
  match document with
  | .obj members =>
    let version := member "version" members
    if version.isNat 4 then Current.readModules members
    else if version.isNat 3 then Legacy.readModules members
    else .error (.version version)
  | _ => .error .notObject

/-- The descriptors of a document. The types in `arnless` are kept without a resource name, in
addition to `arnlessTypes`. -/
def decode (arnless : List Text) (document : Json) : Except Fault (List Descriptor) := do
  let modules ← modulesOf document
  extract (arnlessTypes ++ arnless) modules

def decodeText (arnless : List Text) (t : Text) : Except Fault (List Descriptor) :=
  match Json.ofText t with
  | .error fault => .error (.document fault)
  | .ok document => decode arnless document

def decodeBytes (arnless : List Text) (octets : Bytes) : Except Fault (List Descriptor) :=
  match Json.ofBytes octets with
  | .error fault => .error (.document fault)
  | .ok document => decode arnless document

end StateOwnership.State
