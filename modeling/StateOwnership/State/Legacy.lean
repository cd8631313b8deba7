import StateOwnership.State.Document
import StateOwnership.State.Field
import StateOwnership.Text.Digits
import StateOwnership.Text.Search

/-!
# State documents of version 3

Every module lists its resources by key. The key tells the mode, the type and the name of a
resource and, as a third part, the number of one of several instances.
-/

namespace StateOwnership.State.Legacy

structure Key where
  mode : Text
  type : Text
  name : Text
  index : Json
  deriving DecidableEq

/-- The number of an instance, from the part of a key after the type and the name. Digits are read
as a number, which fails if they have no decimal value; other text is no number. -/
def readIndex (parts : List Text) : Except Fault Json :=
  match parts with
  | _ :: _ :: index :: _ =>
    if Text.isNumeric index then
      match Text.readNumeral index with
      | .ok n => .ok (.int n)
      | .error fault => .error (.index fault)
    else .ok .null
  | _ => .ok .null

/-- The mark in front of the key of a resource that is only looked up. -/
def dataMark : Text := "data."

def readKey (key : Text) : Except Fault Key := do
  let looked := dataMark.isPrefixOf key
  let parts := Text.splitOn 0x2E (if looked then key.drop dataMark.length else key)
  let index ← readIndex parts
  return ⟨if looked then dataMode else managedMode, parts.headD [], (parts.drop 1).headD [], index⟩

def idName : Text := "id"

/-- The attributes of a primary generation, with the generation's own identifier at the end if the
attributes are an object without one. -/
def attributesOf (primary : List (Text × Json)) : Json :=
  let attributes := member "attributes" primary
  match if attributes.isBlank then .obj [] else attributes with
  | .obj members =>
    match member? idName members, member? idName primary with
    | none, some id => .obj (members ++ [(idName, id)])
    | _, _ => .obj members
  | other => other

/-- The instance that a primary generation describes; without one it is not current. -/
def readInstance (field : Text) (index primary : Json) : Except Fault Instance :=
  match primary with
  | .null => .ok ⟨index, false, .null⟩
  | primary => do
    let members ← membersOf (field ++ ".primary") primary
    return ⟨index, true, attributesOf members⟩

/-- A resource listed under a key. The type in the document, if it is not empty, is preferred to
the one in the key. -/
def readResource (entry : Text × Json) : Except Fault Resource := do
  let field : Text := "modules[].resources." ++ entry.1
  let members ← membersOf field entry.2
  let key ← readKey entry.1
  let type ← textOf (field ++ ".type") [] (member "type" members)
  let only ← readInstance field key.index (member "primary" members)
  return ⟨key.mode, if type = [] then key.type else type, key.name, [only]⟩

/-- The address of the module at a path; the root step is left out. -/
def moduleAddress (path : List Json) : Text :=
  let steps := path.filter (· ≠ .str "root")
  Text.stripRight 0x2E (steps.flatMap fun step => "module." ++ step.inSentence ++ ".")

def readModule (value : Json) : Except Fault Module := do
  let members ← membersOf "modules[]" value
  let path ← listOf "modules[].path" (member "path" members)
  let listed := member "resources" members
  let entries ← membersOf "modules[].resources" (if listed.isBlank then .obj [] else listed)
  let resources ← entries.mapM readResource
  return ⟨moduleAddress path, resources⟩

def readModules (members : List (Text × Json)) : Except Fault (List Module) := do
  let values ← listOf "modules" (member "modules" members)
  values.mapM readModule

end StateOwnership.State.Legacy
