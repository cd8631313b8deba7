import StateOwnership.State.Document
import StateOwnership.State.Field

/-!
# State documents of version 4

Resources stand in one list and name their module. They are grouped by module, the modules in the
order in which they are first named.
-/

namespace StateOwnership.State.Current

/-- The attributes of an instance: the structured ones if the member is there, even if it is null,
else the flat ones, else none. -/
def attributesOf (members : List (Text × Json)) : Json :=
  match member? "attributes" members with
  | some attributes => attributes
  | none => (member? "attributes_flat" members).getD (.obj [])

/-- An instance. One that is deposed is not current. -/
def readInstance (value : Json) : Except Fault Instance := do
  let members ← membersOf "resources[].instances[]" value
  return ⟨member "index_key" members, (member? "deposed" members).isNone,
    attributesOf members⟩

def readResource (value : Json) : Except Fault (Text × Resource) := do
  let members ← membersOf "resources[]" value
  let module ← textOf "resources[].module" [] (member "module" members)
  let mode ← textOf "resources[].mode" managedMode (member "mode" members)
  let type ← textOf "resources[].type" [] (member "type" members)
  let name ← textOf "resources[].name" [] (member "name" members)
  let values ← listOf "resources[].instances" (member "instances" members)
  let instances ← values.mapM readInstance
  return (module, ⟨mode, type, name, instances⟩)

/-- Adds a resource at the end of its module. -/
def addResource (modules : OrderedMap Text (List Resource)) (placed : Text × Resource) :
    OrderedMap Text (List Resource) :=
  modules.insert placed.1 ((modules.get? placed.1).getD [] ++ [placed.2])

def groupByModule (placed : List (Text × Resource)) : List Module :=
  (placed.foldl addResource ∅).entries.map fun (address, resources) => ⟨address, resources⟩

def readModules (members : List (Text × Json)) : Except Fault (List Module) := do
  let values ← listOf "resources" (member "resources" members)
  let placed ← values.mapM readResource
  return groupByModule placed

end StateOwnership.State.Current
