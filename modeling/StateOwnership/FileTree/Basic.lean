import StateOwnership.Path
import StateOwnership.Trie

/-!
# File trees

A file tree says what is at each location. A location is the list of names that leads there from
the root, which is always a directory.
-/

namespace StateOwnership

/-- The names that lead from the root to a place. -/
abbrev Location := List Text

inductive FileTree.Entry where
  | directory
  | file (content : Bytes)
  deriving DecidableEq, Repr

/-- What is at each location, and the location that relative paths start from. -/
structure FileTree where
  root : Trie Text FileTree.Entry
  start : Location
  deriving DecidableEq

namespace FileTree

def get? (tree : FileTree) (place : Location) : Option Entry :=
  if place = [] then some .directory else tree.root.get? place

def set (tree : FileTree) (place : Location) (entry : Entry) : FileTree :=
  { tree with root := tree.root.set place entry }

def erase (tree : FileTree) (place : Location) : FileTree :=
  { tree with root := tree.root.erase place }

/-- Takes away what is at a location and below it. -/
def eraseAll (tree : FileTree) (place : Location) : FileTree :=
  { tree with root := tree.root.eraseAll place }

/-- The entries of a file tree with their locations, directories before what they hold. -/
def entries (tree : FileTree) : List (Location × Entry) :=
  tree.root.entries

/-- The tree in which nothing is but the directories that lead to `start`. -/
def fresh (start : Location) : FileTree :=
  (List.range start.length).foldl (fun tree n => tree.set (start.take (n + 1)) .directory)
    ⟨∅, start⟩

/-- What is at a location after an entry was put at one. The root stays. -/
theorem get?_set (tree : FileTree) (place other : Location) (entry : Entry) :
    (tree.set place entry).get? other =
      if other = [] then some .directory
      else if place = other then some entry else tree.get? other := by
  by_cases h : other = [] <;> simp [get?, set, Trie.get?_set, h]

/-- What is at a location after what is at one was taken away. The root stays. -/
theorem get?_erase (tree : FileTree) (place other : Location) :
    (tree.erase place).get? other =
      if other = [] then some .directory
      else if place = other then none else tree.get? other := by
  by_cases h : other = [] <;> simp [get?, erase, Trie.get?_erase, h]

theorem get?_set_of_ne {place other : Location} (h : place ≠ other) (tree : FileTree)
    (entry : Entry) : (tree.set place entry).get? other = tree.get? other := by
  rw [get?_set, if_neg h]
  by_cases hroot : other = [] <;> simp [get?, hroot]

theorem get?_erase_of_ne {place other : Location} (h : place ≠ other) (tree : FileTree) :
    (tree.erase place).get? other = tree.get? other := by
  rw [get?_erase, if_neg h]
  by_cases hroot : other = [] <;> simp [get?, hroot]

inductive Cause where
  | noEntry
  | fileExists
  | notDirectory
  | isDirectory
  | nameTooLong
  deriving DecidableEq, Repr

def Cause.number : Cause → Nat
  | .noEntry => 2
  | .fileExists => 17
  | .notDirectory => 20
  | .isDirectory => 21
  | .nameTooLong => 36

def Cause.text : Cause → Text
  | .noEntry => "No such file or directory"
  | .fileExists => "File exists"
  | .notDirectory => "Not a directory"
  | .isDirectory => "Is a directory"
  | .nameTooLong => "File name too long"

structure Refusal where
  cause : Cause
  path : Text
  deriving DecidableEq, Repr

def Refusal.describe (r : Refusal) : Text :=
  "[Errno " ++ Text.ofNat r.cause.number ++ "] " ++ r.cause.text ++ ": " ++ Text.quote r.path

/-- Why an operation did not happen: the tree refused it, or the path names no place. -/
inductive Fault where
  | refused (refusal : Refusal)
  | path (fault : Path.Fault)
  deriving DecidableEq, Repr

/-- The most octets of a name. -/
def nameLimit : Nat := 255

/-- The most octets of a path. -/
def pathLimit : Nat := 4095

/-- The location that components lead to, from a directory on. Every component but the last one
has to lead to a directory. -/
def walk (tree : FileTree) (place : Location) : List Text → Except Cause Location
  | [] => .ok place
  | name :: rest =>
    if name = [] || name = Path.here then walk tree place rest
    else if name = Path.up then walk tree place.dropLast rest
    else if nameLimit < Path.octetCount name then .error .nameTooLong
    else
      let next := place ++ [name]
      match tree.get? next with
      | none => .error .noEntry
      | some .directory => walk tree next rest
      | some (.file _) => if rest = [] then .ok next else .error .notDirectory

/-- The location that components lead to, from the place whose names are at hand, the last one
first, together with what is below it. It finds what `walk` finds, but looks up one name at a
time. -/
def descend (tree : FileTree) (upward : List Text) (here : Trie Text Entry) :
    List Text → Except Cause Location
  | [] => .ok upward.reverse
  | name :: rest =>
    if name = [] || name = Path.here then descend tree upward here rest
    else if name = Path.up then
      descend tree upward.tail (tree.root.sub upward.tail.reverse) rest
    else if nameLimit < Path.octetCount name then .error .nameTooLong
    else
      let inner := here.child name
      match inner.value? with
      | none => .error .noEntry
      | some .directory => descend tree (name :: upward) inner rest
      | some (.file _) =>
        if rest = [] then .ok (name :: upward).reverse else .error .notDirectory

def reach (tree : FileTree) (place : Location) (names : List Text) : Except Cause Location :=
  tree.descend place.reverse (tree.root.sub place) names

/-- Descent finds what walking finds. -/
theorem reach_eq_walk (tree : FileTree) (place : Location) (names : List Text) :
    tree.reach place names = tree.walk place names := by
  have from_upward (upward : List Text) :
      tree.descend upward (tree.root.sub upward.reverse) names =
        tree.walk upward.reverse names := by
    induction names generalizing upward with
    | nil => rfl
    | cons name rest ih =>
      have inner : (tree.root.sub upward.reverse).child name =
          tree.root.sub (upward.reverse ++ [name]) := by
        simp [Trie.sub, List.foldl_append]
      have found : (tree.root.sub (upward.reverse ++ [name])).value? =
          tree.get? (upward.reverse ++ [name]) := by
        simp [get?, Trie.get?]
      have further := ih (name :: upward)
      rw [List.reverse_cons] at further
      simp only [descend, walk, inner, found, further, ih, List.dropLast_reverse,
        List.reverse_cons]
  simpa [reach] using from_upward place.reverse

def startOf (tree : FileTree) (p : Text) : Location :=
  if Path.isAbsolute p then [] else tree.start

def locate (tree : FileTree) (p : Text) : Except Cause Location :=
  if p = [] then .error .noEntry
  else if pathLimit < Path.octetCount p then .error .nameTooLong
  else tree.reach (tree.startOf p) (Text.splitOn Path.slash p)

def walkToDirectory (tree : FileTree) (place : Location) (names : List Text) :
    Except Cause Location :=
  match tree.reach place names with
  | .error cause => .error cause
  | .ok place =>
    match tree.get? place with
    | some .directory => .ok place
    | _ => .error .notDirectory

/-- A place for a new entry: the location of its directory and its name. The name is none if the
path ends in a component that stands for a directory. -/
def slot (tree : FileTree) (p : Text) : Except Cause (Location × Option Text) :=
  if p = [] then .error .noEntry
  else if pathLimit < Path.octetCount p then .error .nameTooLong
  else
    let names := Path.components p
    match walkToDirectory tree (tree.startOf p) names.dropLast with
    | .error cause => .error cause
    | .ok parent =>
      match names.getLast? with
      | none => .ok (parent, none)
      | some name => .ok (parent, if name = Path.here || name = Path.up then none else some name)

def pathExists (tree : FileTree) (p : Text) : Bool :=
  (Path.check p).toBool && (tree.locate p).toBool

def isDirectory (tree : FileTree) (p : Text) : Bool :=
  match Path.check p, tree.locate p with
  | .ok _, .ok place => tree.get? place = some .directory
  | _, _ => false

end FileTree
end StateOwnership
