import StateOwnership.Text.Basic

/-!
# Searching a text

Pieces between separators, runs at either end, and replacement of every occurrence of a text.
-/

namespace StateOwnership.Text

/-- The pieces between the occurrences of `separator`; there is always at least one. -/
def splitOn (separator : CodePoint) : Text → List Text
  | [] => [[]]
  | c :: rest =>
    if c = separator then [] :: splitOn separator rest
    else
      match splitOn separator rest with
      | piece :: pieces => (c :: piece) :: pieces
      | [] => [[c]]

def stripLeft (c : CodePoint) (t : Text) : Text :=
  t.dropWhile (· == c)

def stripRight (c : CodePoint) (t : Text) : Text :=
  (t.reverse.dropWhile (· == c)).reverse

/-- Replacement inside a text whose first `skip` code points belong to an occurrence that has been
replaced already. -/
def replaceFrom (old new : Text) : (skip : Nat) → Text → Text
  | _, [] => []
  | skip + 1, _ :: rest => replaceFrom old new skip rest
  | 0, c :: rest =>
    if old.isPrefixOf (c :: rest) then new ++ replaceFrom old new (old.length - 1) rest
    else c :: replaceFrom old new 0 rest

/-- Every occurrence of `old`, read from left to right without overlap, replaced by `new`. The
empty text occurs before, between and after all code points. -/
def replace (old new t : Text) : Text :=
  if old = [] then new ++ t.flatMap (fun c => c :: new)
  else replaceFrom old new 0 t

end StateOwnership.Text
