import StateOwnership.Text.Printable

/-!
# Quoted text

A quoted text stands between single quotes, or between double quotes if it holds a single quote and
no double one. The quote, the backslash and all that is not printable are escaped.
-/

namespace StateOwnership.Text

def singleQuote : CodePoint := 0x27

def doubleQuote : CodePoint := 0x22

def backslash : CodePoint := 0x5C

def quoteCodePoint (mark c : CodePoint) : Text :=
  if c = mark || c = backslash then [backslash, c]
  else if c = 0x09 then "\\t"
  else if c = 0x0A then "\\n"
  else if c = 0x0D then "\\r"
  else if c.isPrintable then [c]
  else if c.val ≤ 0xFF then "\\x" ++ hexPadded 2 c.val
  else if c.val ≤ 0xFFFF then "\\u" ++ hexPadded 4 c.val
  else "\\U" ++ hexPadded 8 c.val

def quoteMark (t : Text) : CodePoint :=
  if t.contains singleQuote && !t.contains doubleQuote then doubleQuote else singleQuote

def quote (t : Text) : Text :=
  let mark := quoteMark t
  mark :: t.flatMap (quoteCodePoint mark) ++ [mark]

end StateOwnership.Text
