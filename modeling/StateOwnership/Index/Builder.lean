import StateOwnership.Index.Basic

/-!
# Building indexes

State files claim resources one after the other. **The owner of a resource is the last that claimed
it.** A claim of a resource that another file owns takes it over, and every such takeover is kept.
-/

namespace StateOwnership.Index

/-- A resource that passed from one owner to another. -/
structure Takeover where
  id : Text
  previous : Text
  owner : Text
  deriving DecidableEq, Repr

def Takeover.describe (t : Takeover) : Text :=
  t.id ++ " is managed by both " ++ t.previous ++ " and " ++ t.owner ++ ", keeping the latter"

/-- The owners so far and the takeovers that led to them. -/
structure Builder where
  entries : OrderedMap Text Text
  takeovers : List Takeover
  deriving DecidableEq

namespace Builder

def empty : Builder := ⟨∅, []⟩

instance : EmptyCollection Builder := ⟨empty⟩

instance : Inhabited Builder := ⟨empty⟩

def takeover? (builder : Builder) (owner id : Text) : Option Takeover :=
  match builder.entries.get? id with
  | none => none
  | some previous => if previous = owner then none else some ⟨id, previous, owner⟩

def claim (owner : Text) (builder : Builder) (id : Text) : Builder :=
  ⟨builder.entries.insert id owner, builder.takeovers ++ (builder.takeover? owner id).toList⟩

def claimAll (builder : Builder) (ids : List Text) (owner : Text) : Builder :=
  ids.foldl (claim owner) builder

/-- The number of takeovers. -/
def overwritten (builder : Builder) : Nat :=
  builder.takeovers.length

def build (builder : Builder) : Index :=
  ⟨builder.entries⟩

end Builder
end StateOwnership.Index
