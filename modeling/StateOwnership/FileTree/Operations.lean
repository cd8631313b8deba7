import StateOwnership.FileTree.Basic
import StateOwnership.Text.Quoted

/-!
# Operations on file trees

Reading, creating, writing and removing by path. An operation that makes several entries keeps
those it has made when it fails.
-/

namespace StateOwnership.FileTree

def refuse {α : Type} (p : Text) (cause : Cause) : Except Fault α :=
  .error (.refused ⟨cause, p⟩)

def read (tree : FileTree) (p : Text) : Except Fault Bytes :=
  match Path.check p with
  | .error fault => .error (.path fault)
  | .ok _ =>
    match tree.locate p with
    | .error cause => refuse p cause
    | .ok place =>
      match tree.get? place with
      | some (.file content) => .ok content
      | some .directory => refuse p .isDirectory
      | none => refuse p .noEntry

/-- Makes sure that there is a file to write at a path, and says where it is. A new file is empty;
one that is there is emptied if `anew`. -/
def openFile (tree : FileTree) (p : Text) (anew : Bool) : Except Fault (Location × FileTree) :=
  match Path.check p with
  | .error fault => .error (.path fault)
  | .ok _ =>
    match tree.slot p with
    | .error cause => refuse p cause
    | .ok (_, none) => refuse p .isDirectory
    | .ok (parent, some name) =>
      if Path.endsWithSlash p then refuse p .isDirectory
      else if nameLimit < Path.octetCount name then refuse p .nameTooLong
      else
        let place := parent ++ [name]
        match tree.get? place with
        | some .directory => refuse p .isDirectory
        | some (.file _) => .ok (place, if anew then tree.set place (.file []) else tree)
        | none => .ok (place, tree.set place (.file []))

def makeDirectory (tree : FileTree) (p : Text) : Except Fault FileTree :=
  match Path.check p with
  | .error fault => .error (.path fault)
  | .ok _ =>
    match tree.slot p with
    | .error cause => refuse p cause
    | .ok (_, none) => refuse p .fileExists
    | .ok (parent, some name) =>
      if nameLimit < Path.octetCount name then refuse p .nameTooLong
      else
        let place := parent ++ [name]
        match tree.get? place with
        | some _ => refuse p .fileExists
        | none => .ok (tree.set place .directory)

/-- The directory that a path is in and its last component, slashes at the end put aside. -/
def splitLast (p : Text) : Text × Text :=
  if Path.fileName p = [] then
    let inner := Path.directory p
    (Path.directory inner, Path.fileName inner)
  else (Path.directory p, Path.fileName p)

def ensureDirectory (tree : FileTree) (p : Text) : Except Fault Unit × FileTree :=
  match tree.makeDirectory p with
  | .ok made => (.ok (), made)
  | .error (.path fault) => (.error (.path fault), tree)
  | .error (.refused refusal) =>
    if tree.isDirectory p then (.ok (), tree) else (.error (.refused refusal), tree)

/-- Makes a directory and those that lead to it, `fuel` at most, unless they are there. A file in
the way of a directory that leads to it is noticed one step later. -/
def ensureDirectories (tree : FileTree) (p : Text) : (fuel : Nat) → Except Fault Unit × FileTree
  | 0 => (.ok (), tree)
  | fuel + 1 =>
    let (parent, name) := splitLast p
    if parent ≠ [] ∧ name ≠ [] ∧ tree.pathExists parent = false then
      match ensureDirectories tree parent fuel with
      | (.ok _, made) => if name = Path.here then (.ok (), made) else made.ensureDirectory p
      | (.error (.refused ⟨.fileExists, _⟩), made) =>
        if name = Path.here then (.ok (), made) else made.ensureDirectory p
      | (.error fault, made) => (.error fault, made)
    else tree.ensureDirectory p

def makeDirectories (tree : FileTree) (p : Text) : Except Fault Unit × FileTree :=
  ensureDirectories tree p (p.length + 1)

/-- Writes octets over the beginning of the file at a location. What is no longer there is not
written. -/
def overwriteStart (tree : FileTree) (place : Location) (octets : Bytes) : FileTree :=
  match tree.get? place with
  | some (.file old) => tree.set place (.file (octets ++ old.drop octets.length))
  | _ => tree

/-- Writes octets behind the end of the file at a location. -/
def append (tree : FileTree) (place : Location) (octets : Bytes) : FileTree :=
  match tree.get? place with
  | some (.file old) => tree.set place (.file (old ++ octets))
  | _ => tree

def removeFile (tree : FileTree) (p : Text) : Except Fault FileTree :=
  match Path.check p with
  | .error fault => .error (.path fault)
  | .ok _ =>
    match tree.locate p with
    | .error cause => refuse p cause
    | .ok place =>
      match tree.get? place with
      | some (.file _) => .ok (tree.erase place)
      | some .directory => refuse p .isDirectory
      | none => refuse p .noEntry

end StateOwnership.FileTree
