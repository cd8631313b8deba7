import StateOwnership.Text.Basic

/-!
# Lines

The last line of a text, and a text without the control sequences that style it on a terminal.

A control sequence is the escape mark and a bracket, any number of parameters, any number of
intermediates, and the one code point that ends it. The three classes are apart, so a text has at
most one sequence at a place.
-/

namespace StateOwnership
namespace Text

/-- What stands behind the last line feed. -/
def lastLine (t : Text) : Text :=
  (t.reverse.takeWhile (· ≠ 0x0A)).reverse

def escapeMark : CodePoint := 0x1B

/-- A parameter of a control sequence: a digit or one of `:;<=>?`. -/
def isParameter (c : CodePoint) : Bool :=
  0x30 ≤ c.val && c.val ≤ 0x3F

/-- An intermediate of a control sequence: a space or a mark before the digits. -/
def isIntermediate (c : CodePoint) : Bool :=
  0x20 ≤ c.val && c.val ≤ 0x2F

/-- What ends a control sequence: a letter or one of the marks around the letters. -/
def isFinal (c : CodePoint) : Bool :=
  0x40 ≤ c.val && c.val ≤ 0x7E

/-- The number of code points of the control sequence whose first one stands before `t`, not
counting that one. -/
def sequenceLength? : Text → Option Nat
  | 0x5B :: rest =>
    let parameters := rest.takeWhile isParameter
    let intermediates := (rest.drop parameters.length).takeWhile isIntermediate
    let length := parameters.length + intermediates.length
    match rest.drop length with
    | c :: _ => if isFinal c then some (length + 2) else none
    | [] => none
  | _ => none

/-- A text without control sequences; the first `skip` code points belong to one. -/
def unstyledFrom : (skip : Nat) → Text → Text
  | _, [] => []
  | skip + 1, _ :: rest => unstyledFrom skip rest
  | 0, c :: rest =>
    match if c = escapeMark then sequenceLength? rest else none with
    | some length => unstyledFrom length rest
    | none => c :: unstyledFrom 0 rest

def unstyled (t : Text) : Text :=
  unstyledFrom 0 t

end Text
end StateOwnership
