import StateOwnership.Config.Document
import StateOwnership.Config.Validate
import StateOwnership.World

/-!
# Configuration files

A configuration file is a document in UTF-8. A carriage return, alone or before a line feed, ends a
line like a line feed does, so places in messages count it as one.
-/

namespace StateOwnership

/-- A text with every line ended by a line feed. -/
def Text.unifyLineEnds : Text → Text
  | [] => []
  | 0x0D :: 0x0A :: rest => 0x0A :: unifyLineEnds rest
  | c :: rest => (if c = 0x0D then 0x0A else c) :: unifyLineEnds rest

namespace Config

/-- The text that octets spell in UTF-8. -/
def decodeFile (octets : Bytes) : Except Json.Fault Text :=
  match Text.decodeUtf8 .refuse octets with
  | .error fault => .error (.encoding fault)
  | .ok t => .ok (Text.unifyLineEnds t)

def documentOf (octets : Bytes) : Except Json.Fault Json := do
  Json.ofText (← decodeFile octets)

def fileFailure (path : Text) : FileTree.Fault → Failure
  | .refused refusal => .error (Fault.unreadable path refusal).toError
  | .path fault => .path fault

/-- How a file that holds no document is reported: a malformed document as an error, anything else
that stops the reader as it is. -/
def documentFailure (path : Text) : Json.Fault → Failure
  | .malformed what place => .error (Fault.notDocument path (.malformed what place)).toError
  | fault => .document fault

def ofFile (files : FileTree) (path : Text) : Except Failure Config :=
  match files.read path with
  | .error fault => .error (fileFailure path fault)
  | .ok octets =>
    match documentOf octets with
    | .error fault => .error (documentFailure path fault)
    | .ok document =>
      match ofJson document with
      | .error fault => .error (.error fault.toError)
      | .ok config => .ok config

def load (path : Text) : Action Config := do
  match ofFile (← Action.files) path with
  | .error failure => throw failure
  | .ok config =>
    Action.record Log.debug Log.configSource
      ("Loaded configuration from " ++ path ++ " with " ++ Text.ofNat config.backends.length ++
        " backend(s)")
    return config

/-- Validates a configuration and notes in the log if its options were not set. -/
def validated (config : Config) : Action Config := do
  match config.validate with
  | .error fault => Action.failWith fault.toError
  | .ok valid =>
    if config.options = none then
      Action.record Log.debug Log.configSource "No fetch options configured, using defaults"
    return valid

end Config
end StateOwnership
