import StateOwnership.Json.Literal

/-!
# Indexes

An index says which state file owns each resource. Its order is that in which the resources first
appeared.
-/

namespace StateOwnership

/-- The owner of every resource id. -/
structure Index where
  entries : OrderedMap Text Text
  deriving DecidableEq

namespace Index

def empty : Index := ⟨∅⟩

instance : EmptyCollection Index := ⟨empty⟩

instance : Inhabited Index := ⟨empty⟩

def lookup (index : Index) (id : Text) : Option Text :=
  index.entries.get? id

def ids (index : Index) : List Text :=
  index.entries.keys

def size (index : Index) : Nat :=
  index.entries.size

def countOwner (counts : OrderedMap Text Nat) (owner : Text) : OrderedMap Text Nat :=
  counts.insert owner ((counts.get? owner).getD 0 + 1)

/-- The number of resources of each owner. -/
def owners (index : Index) : OrderedMap Text Nat :=
  index.entries.values.foldl countOwner ∅

/-- Whether two indexes give every id the same owner. -/
def same (a b : Index) : Bool :=
  a.entries.sameEntries b.entries

/-- Whether the members of an object are the entries of an index. -/
def sameAsMembers (index : Index) (members : List (Text × Json)) : Bool :=
  index.size = members.length &&
    index.entries.entries.all fun entry => Entries.get? entry.1 members = some (.str entry.2)

def describe (index : Index) : Text :=
  "ResourceIndex(resources=" ++ Text.ofNat index.size ++ ")"

/-! ## 1. Looking up values -/

inductive LookupFault where
  | container (value : Json)
  | missing (value : Json)
  deriving DecidableEq

def LookupFault.describe : LookupFault → Text
  | .container value => "unhashable type: '" ++ value.kind ++ "'"
  | .missing value => value.literal

/-- The owner of what a value names. Only texts name resources, and containers are refused. -/
def lookupValue (index : Index) (value : Json) : Except LookupFault (Option Text) :=
  match value with
  | .str id => .ok (index.lookup id)
  | .arr items => .error (.container (.arr items))
  | .obj members => .error (.container (.obj members))
  | _ => .ok none

/-- The owner of what a value names, which must be managed. -/
def getValue (index : Index) (value : Json) : Except LookupFault Text :=
  match index.lookupValue value with
  | .error fault => .error fault
  | .ok none => .error (.missing value)
  | .ok (some owner) => .ok owner

/-! ## 2. Annotating resources -/

/-- The member that names the owner of an annotated resource. -/
def ownerMember : Text := "managed_by"

def idMember : Text := "id"

def ownerValue : Option Text → Json
  | none => .null
  | some owner => .str owner

/-- A resource with its owner noted. The id is the value of the member `idKey`. -/
def annotate (index : Index) (idKey : Text) (resource : List (Text × Json)) :
    Except LookupFault (List (Text × Json)) :=
  match index.lookupValue ((Entries.get? idKey resource).getD .null) with
  | .error fault => .error fault
  | .ok owner => .ok (Entries.put ownerMember (ownerValue owner) resource)

def annotateAll (index : Index) (idKey : Text) (resources : List (List (Text × Json))) :
    Except LookupFault (List (List (Text × Json))) :=
  resources.mapM (index.annotate idKey)

end Index
end StateOwnership
