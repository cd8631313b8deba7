import StateOwnership.FileTree.Operations
import StateOwnership.World

/-!
# Transfers

A transfer writes the body of an object to a file that was opened for it. A short body is kept back
until the file is closed; a body that is longer than the limit goes to the file at once. A file that
was removed in the meantime receives nothing.
-/

namespace StateOwnership.Fetch

/-- A file opened for the object of a key, and how the transfer goes once it is submitted. -/
structure Transfer where
  key : Text
  path : Text
  place : Location
  delivery : Option Delivery
  deriving DecidableEq, Repr

/-- The most octets that are kept back until a file is closed. -/
def bufferLimit : Nat := 4096

def writtenAtOnce (body : Bytes) : Bytes :=
  if body.length ≤ bufferLimit then [] else body

/-- The part of a body that is kept back until the file is closed. -/
def keptBack (body : Bytes) : Bytes :=
  if body.length ≤ bufferLimit then body else []

inductive Verdict where
  /-- The file holds the whole object. -/
  | succeeded
  | incomplete
  /-- Asking for the result interrupts the program. -/
  | interrupted
  deriving DecidableEq, Repr

def Transfer.isDone (ticks : Nat) (t : Transfer) : Bool :=
  match t.delivery with
  | none => false
  | some delivery => delivery.readyAfter ≤ ticks

def Transfer.verdict (ticks : Nat) (t : Transfer) : Verdict :=
  match t.delivery with
  | none => .incomplete
  | some delivery =>
    if delivery.readyAfter ≤ ticks then
      match delivery.fault with
      | none => .succeeded
      | some .interrupted => .interrupted
      | some _ => .incomplete
    else .incomplete

def Transfer.close (t : Transfer) (files : FileTree) : FileTree :=
  match t.delivery with
  | none => files
  | some delivery => files.overwriteStart t.place (keptBack delivery.body)

/-- The file tree after the files of transfers are closed, the one opened last first. -/
def closeAll (transfers : List Transfer) (files : FileTree) : FileTree :=
  transfers.foldr (fun t files => t.close files) files

/-- Closes the file of an incomplete transfer and removes what its path names. What is gone already
need not be removed, and a refusal is noted in the log only. -/
def remove (t : Transfer) : Action Unit := do
  let files := t.close (← Action.files)
  match files.removeFile t.path with
  | .ok after =>
    Action.setFiles after
    Action.record Log.debug Log.fetchSource ("Removed incomplete file " ++ t.path)
  | .error (.refused refusal) =>
    Action.setFiles files
    if refusal.cause ≠ .noEntry then
      Action.record Log.warning Log.fetchSource
        ("Unable to remove partial file " ++ t.path ++ ": " ++ refusal.describe)
  | .error (.path fault) =>
    Action.setFiles files
    throw (Failure.path fault)

/-- Removes the files of the transfers that did not succeed. An interruption ends this early. -/
def discard : List Transfer → Action Unit
  | [] => return
  | t :: rest => do
    match t.verdict (← Action.ticks) with
    | .succeeded => discard rest
    | .interrupted => throw Failure.interrupted
    | .incomplete =>
      remove t
      discard rest

end StateOwnership.Fetch
