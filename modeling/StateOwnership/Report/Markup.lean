import StateOwnership.Text.Quoted

/-!
# Console markup

Console lines are styled by tags in square brackets. A text that is not meant to be styled is
escaped: a backslash goes before each tag, the backslashes that stand there already are doubled, and
a single backslash at the end gets a second one, so that it does not escape what follows.
-/

namespace StateOwnership.Markup

open Text (backslash)

def openBracket : CodePoint := 0x5B

def closeBracket : CodePoint := 0x5D

def startsTagName (c : CodePoint) : Bool :=
  (0x61 ≤ c.val && c.val ≤ 0x7A) || c = 0x23 || c = 0x2F || c = 0x40

def startsTag : Text → Bool
  | c :: name :: rest =>
    c = openBracket && startsTagName name &&
      (rest.takeWhile (· != openBracket)).contains closeBracket
  | _ => false

/-- A text with a backslash before each tag and the backslashes before it doubled. -/
def escapeTags : Text → Text
  | [] => []
  | c :: rest =>
    if startsTag (c :: rest) then backslash :: c :: escapeTags rest
    -- every backslash of a run that ends right before a tag
    else if c = backslash && startsTag (rest.dropWhile (· == backslash)) then
      backslash :: backslash :: escapeTags rest
    else c :: escapeTags rest

def endsWithSingleBackslash (t : Text) : Bool :=
  (t.reverse.takeWhile (· == backslash)).length = 1

/-- A text as markup that shows it as it is. -/
def escape (t : Text) : Text :=
  let tagged := escapeTags t
  if endsWithSingleBackslash tagged then tagged ++ [backslash] else tagged

def styled (style markup : Text) : Text :=
  "[" ++ style ++ "]" ++ markup ++ "[/" ++ style ++ "]"

/-- Markup in a style that the closing tag does not name. -/
def styledBriefly (style markup : Text) : Text :=
  "[" ++ style ++ "]" ++ markup ++ "[/]"

end StateOwnership.Markup
