import StateOwnership.State.Fault

/-!
# Fields of state documents

A field that is absent counts as null. Null stands for the empty list and for the default text.
-/

namespace StateOwnership.State

def member? (name : Text) (members : List (Text × Json)) : Option Json :=
  Entries.get? name members

/-- The value of a member of an object, null if there is none. -/
def member (name : Text) (members : List (Text × Json)) : Json :=
  (member? name members).getD .null

def listOf (field : Text) : Json → Except Fault (List Json)
  | .null => .ok []
  | .arr items => .ok items
  | _ => .error (.fieldNotList field)

def membersOf (field : Text) : Json → Except Fault (List (Text × Json))
  | .obj members => .ok members
  | _ => .error (.fieldNotObject field)

def textOf (field absent : Text) : Json → Except Fault Text
  | .null => .ok absent
  | .str t => .ok t
  | value => .error (.fieldNotText field value)

end StateOwnership.State
