import StateOwnership.Json.Basic
import StateOwnership.Text.Quoted
import StateOwnership.Decimal.Shortest

/-!
# Values in messages

Messages show a value as a literal: `None`, `True` and `False` for the constants, quoted text, and
containers with a comma and a space between their parts.
-/

namespace StateOwnership.Json

mutual

def literal : Json → Text
  | .null => "None"
  | .bool true => "True"
  | .bool false => "False"
  | .int i => Text.ofInt i
  | .float x => x.toText
  | .str t => Text.quote t
  | .arr items => "[" ++ literalItems items ++ "]"
  | .obj members => "\x7b" ++ literalMembers members ++ "\x7d"

def literalItems : List Json → Text
  | [] => []
  | [value] => literal value
  | value :: next :: rest => literal value ++ ", " ++ literalItems (next :: rest)

def literalMembers : List (Text × Json) → Text
  | [] => []
  | [(name, value)] => Text.quote name ++ ": " ++ literal value
  | (name, value) :: next :: rest =>
    Text.quote name ++ ": " ++ literal value ++ ", " ++ literalMembers (next :: rest)

end

/-- A value inside a sentence: a text stands for itself, other values are literals. -/
def inSentence : Json → Text
  | .str t => t
  | value => literal value

end StateOwnership.Json
