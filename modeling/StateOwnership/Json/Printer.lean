import StateOwnership.Json.Basic
import StateOwnership.Text.Quoted
import StateOwnership.Decimal.Shortest

/-!
# Writing documents

Documents are written in printable ASCII: every other code point is escaped by its 16-bit code
units. Without indentation the parts of a container are separated by a comma and a space; with
indentation each stands on a line of its own. A container without parts is written without lines.
-/

namespace StateOwnership.Json

open Text (doubleQuote backslash)

def escapeUnit (unit : Nat) : Text :=
  "\\u" ++ Text.hexPadded 4 unit

def escapeCodePoint (c : CodePoint) : Text :=
  if c = doubleQuote || c = backslash then [backslash, c]
  else if c = 0x08 then "\\b"
  else if c = 0x09 then "\\t"
  else if c = 0x0A then "\\n"
  else if c = 0x0C then "\\f"
  else if c = 0x0D then "\\r"
  else if 0x20 ≤ c.val && c.val < 0x7F then [c]
  else if c.val < 0x10000 then escapeUnit c.val
  else
    let offset := c.val - 0x10000
    escapeUnit (0xD800 + offset / 0x400) ++ escapeUnit (0xDC00 + offset % 0x400)

def renderString (t : Text) : Text :=
  doubleQuote :: t.flatMap escapeCodePoint ++ [doubleQuote]

def renderFloat : Binary64 → Text
  | .notANumber => "NaN"
  | .infinity false => "Infinity"
  | .infinity true => "-Infinity"
  | x => x.toText

/-- The start of a new line inside `level` containers, if lines are wanted. -/
def newLine (indent : Option Nat) (level : Nat) : Text :=
  match indent with
  | none => []
  | some width => 0x0A :: Text.spaces (width * level)

/-- What stands between two parts of a container that is inside `level` containers. -/
def separator (indent : Option Nat) (level : Nat) : Text :=
  match indent with
  | none => ", "
  | some _ => "," ++ newLine indent level

mutual

/-- A value inside `level` containers. -/
def renderAt (indent : Option Nat) (level : Nat) : Json → Text
  | .null => "null"
  | .bool true => "true"
  | .bool false => "false"
  | .int i => Text.ofInt i
  | .float x => renderFloat x
  | .str t => renderString t
  | .arr [] => "[]"
  | .arr (item :: items) =>
    "[" ++ newLine indent (level + 1) ++ renderItems indent (level + 1) (item :: items) ++
      newLine indent level ++ "]"
  | .obj [] => "\x7b\x7d"
  | .obj (member :: members) =>
    "\x7b" ++ newLine indent (level + 1) ++ renderMembers indent (level + 1) (member :: members) ++
      newLine indent level ++ "\x7d"

def renderItems (indent : Option Nat) (level : Nat) : List Json → Text
  | [] => []
  | [item] => renderAt indent level item
  | item :: next :: rest =>
    renderAt indent level item ++ separator indent level ++ renderItems indent level (next :: rest)

def renderMembers (indent : Option Nat) (level : Nat) : List (Text × Json) → Text
  | [] => []
  | [(name, value)] => renderString name ++ ": " ++ renderAt indent level value
  | (name, value) :: next :: rest =>
    renderString name ++ ": " ++ renderAt indent level value ++ separator indent level ++
      renderMembers indent level (next :: rest)

end

/-- The document that holds a value, on one line or with the given indentation. -/
def render (indent : Option Nat) (value : Json) : Text :=
  renderAt indent 0 value

end StateOwnership.Json
