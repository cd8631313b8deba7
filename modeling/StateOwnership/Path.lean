import StateOwnership.Text.Search
import StateOwnership.Text.Utf8

/-!
# Paths

A path is a text whose components are separated by slashes. Joining and splitting work on the text
alone; whether anything is there is a question for a file tree.
-/

namespace StateOwnership.Path

def slash : CodePoint := 0x2F

def here : Text := "."

def up : Text := ".."

def isAbsolute (p : Text) : Bool :=
  p.head? = some slash

def endsWithSlash (p : Text) : Bool :=
  p.getLast? = some slash

/-- `b` inside the directory `a`, or `b` alone if it starts at the root. -/
def join (a b : Text) : Text :=
  if isAbsolute b then b
  else if a = [] || endsWithSlash a then a ++ b
  else a ++ slash :: b

/-- What follows the last slash. -/
def fileName (p : Text) : Text :=
  (p.reverse.takeWhile (· != slash)).reverse

/-- What stands up to the last slash, that slash included. -/
def upToFileName (p : Text) : Text :=
  (p.reverse.dropWhile (· != slash)).reverse

/-- The directory part of a path: what stands before the last slash, without slashes at its end
unless it consists of nothing else. -/
def directory (p : Text) : Text :=
  let part := upToFileName p
  if part.all (· == slash) then part else Text.stripRight slash part

def components (p : Text) : List Text :=
  (Text.splitOn slash p).filter (· ≠ [])

/-- The slashes that a tidied path starts with: two are kept, more count as one. -/
def root (p : Text) : Text :=
  match (p.takeWhile (· == slash)).length with
  | 0 => []
  | 2 => [slash, slash]
  | _ => [slash]

/-- A path without empty components and without the ones that stand for the directory itself. -/
def tidy (p : Text) : Text :=
  let named : List Text := (components p).filter (· ≠ here)
  let whole := root p ++ Text.joinWith [slash] named
  if whole = [] then here else whole

/-- Removes the components that stand for a parent together with the component before them; in
front of a path from the root such a component means nothing. -/
def cancelParents (absolute : Bool) (names : List Text) : List Text :=
  names.foldl (fun kept name =>
    if name = up then
      match kept.getLast? with
      | none => if absolute then [] else [up]
      | some last => if last = up then kept ++ [up] else kept.dropLast
    else kept ++ [name]) []

/-- The octets of a path. A surrogate in the range from DC80 to DCFF stands for a single octet. -/
def octetCount (p : Text) : Nat :=
  p.foldl (fun count c =>
    count + if 0xDC80 ≤ c.val ∧ c.val ≤ 0xDCFF then 1 else (Text.utf8Octets c).length) 0

inductive Fault where
  | unencodable (fault : Text.EncodingFault)
  | nullByte
  deriving DecidableEq, Repr

def Fault.describe : Fault → Text
  | .unencodable fault => fault.describe
  | .nullByte => "embedded null byte"

def check (p : Text) : Except Fault Unit :=
  match Text.surrogateFaultFrom (fun c => 0xDC80 ≤ c.val && c.val ≤ 0xDCFF) 0 p with
  | some fault => .error (.unencodable fault)
  | none => if p.contains 0 then .error .nullByte else .ok ()

end StateOwnership.Path
