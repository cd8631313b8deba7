import StateOwnership.DateTime
import StateOwnership.Index.Basic

/-!
# Inventories

What comes of loading state files: an index of what could be decoded, and the files that could not.
-/

namespace StateOwnership

/-- An index, the paths of the files behind it, and why other files are not behind it. -/
structure Inventory where
  index : Index
  filesLoaded : List Text
  skipped : OrderedMap Text Text
  collisions : Int
  loadTime : DateTime
  deriving DecidableEq

namespace Inventory

def skippedCount (inventory : Inventory) : Nat :=
  inventory.skipped.size

def isComplete (inventory : Inventory) : Bool :=
  inventory.skipped.isEmpty

def describe (inventory : Inventory) : Text :=
  "LoadResult(resources=" ++ Text.ofNat inventory.index.size ++ ", loaded=" ++
    Text.ofNat inventory.filesLoaded.length ++ ", skipped=" ++
    Text.ofNat inventory.skippedCount ++ ")"

end Inventory
end StateOwnership
