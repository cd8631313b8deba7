import StateOwnership.FileTree.Operations
import StateOwnership.State.Decode
import StateOwnership.World

/-!
# State files

A state file that cannot be opened or decoded is reported as an error that names its path.
-/

namespace StateOwnership.State

def unreadableError (path : Text) (refusal : FileTree.Refusal) : Error :=
  Error.about (.decode (some path) none) ("Unable to read state file: " ++ refusal.describe) ∅

def fileFailure (path : Text) : FileTree.Fault → Failure
  | .refused refusal => .error (unreadableError path refusal)
  | .path fault => .path fault

def decodeFailure (path : Text) : Fault → Failure
  | .index fault => .numeral fault
  | fault => .error (fault.toError (some path))

def ofFile (files : FileTree) (arnless : List Text) (path : Text) :
    Except Failure (List Descriptor) :=
  match files.read path with
  | .error fault => .error (fileFailure path fault)
  | .ok octets =>
    match decodeBytes arnless octets with
    | .error fault => .error (decodeFailure path fault)
    | .ok descriptors => .ok descriptors

def loadFile (arnless : List Text) (path : Text) : Action (List Descriptor) := do
  match ofFile (← Action.files) arnless path with
  | .error failure => throw failure
  | .ok descriptors =>
    Action.record Log.debug Log.stateSource
      ("Decoded " ++ Text.ofNat descriptors.length ++ " resources from " ++ path)
    return descriptors

end StateOwnership.State
