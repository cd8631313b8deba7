import StateOwnership.Text.Quoted

/-!
# Digits of all scripts

A decimal digit has a place in a run of ten with values 0 to 9. A further digit (superscript,
circled, …) has the digit property, but no decimal value (Unicode 14.0).

Whole numbers are read from decimal digits of any script, up to a limit on their number.
-/

namespace StateOwnership.CodePoint

/-- The runs of decimal digits. Each begins with a zero and holds a multiple of ten digits. -/
def decimalRanges : List (Nat × Nat) :=
  [(0x30, 0x39), (0x660, 0x669), (0x6F0, 0x6F9), (0x7C0, 0x7C9), (0x966, 0x96F), (0x9E6, 0x9EF),
   (0xA66, 0xA6F), (0xAE6, 0xAEF), (0xB66, 0xB6F), (0xBE6, 0xBEF), (0xC66, 0xC6F),
   (0xCE6, 0xCEF), (0xD66, 0xD6F), (0xDE6, 0xDEF), (0xE50, 0xE59), (0xED0, 0xED9),
   (0xF20, 0xF29), (0x1040, 0x1049), (0x1090, 0x1099), (0x17E0, 0x17E9), (0x1810, 0x1819),
   (0x1946, 0x194F), (0x19D0, 0x19D9), (0x1A80, 0x1A89), (0x1A90, 0x1A99), (0x1B50, 0x1B59),
   (0x1BB0, 0x1BB9), (0x1C40, 0x1C49), (0x1C50, 0x1C59), (0xA620, 0xA629), (0xA8D0, 0xA8D9),
   (0xA900, 0xA909), (0xA9D0, 0xA9D9), (0xA9F0, 0xA9F9), (0xAA50, 0xAA59), (0xABF0, 0xABF9),
   (0xFF10, 0xFF19), (0x104A0, 0x104A9), (0x10D30, 0x10D39), (0x11066, 0x1106F),
   (0x110F0, 0x110F9), (0x11136, 0x1113F), (0x111D0, 0x111D9), (0x112F0, 0x112F9),
   (0x11450, 0x11459), (0x114D0, 0x114D9), (0x11650, 0x11659), (0x116C0, 0x116C9),
   (0x11730, 0x11739), (0x118E0, 0x118E9), (0x11950, 0x11959), (0x11C50, 0x11C59),
   (0x11D50, 0x11D59), (0x11DA0, 0x11DA9), (0x16A60, 0x16A69), (0x16AC0, 0x16AC9),
   (0x16B50, 0x16B59), (0x1D7CE, 0x1D7FF), (0x1E140, 0x1E149), (0x1E2F0, 0x1E2F9),
   (0x1E950, 0x1E959), (0x1FBF0, 0x1FBF9)]

/-- The digits without a decimal value. -/
def otherDigitRanges : List (Nat × Nat) :=
  [(0xB2, 0xB3), (0xB9, 0xB9), (0x1369, 0x1371), (0x19DA, 0x19DA), (0x2070, 0x2070),
   (0x2074, 0x2079), (0x2080, 0x2089), (0x2460, 0x2468), (0x2474, 0x247C), (0x2488, 0x2490),
   (0x24EA, 0x24EA), (0x24F5, 0x24FD), (0x24FF, 0x24FF), (0x2776, 0x277E), (0x2780, 0x2788),
   (0x278A, 0x2792), (0x10A40, 0x10A43), (0x10E60, 0x10E68), (0x11052, 0x1105A),
   (0x1F100, 0x1F10A)]

def decimalValue? (c : CodePoint) : Option Nat :=
  (decimalRanges.find? fun (low, high) => low ≤ c.val && c.val ≤ high).map
    fun (low, _) => (c.val - low) % 10

/-- A digit of any script, decimal or not. -/
def isDigit (c : CodePoint) : Bool :=
  (decimalValue? c).isSome || inRanges otherDigitRanges c.val

end StateOwnership.CodePoint

namespace StateOwnership.Text

def digitLimit : Nat := 4300

def digitLimitText (count : Nat) : Text :=
  "Exceeds the limit (4300 digits) for integer string conversion: value has " ++
    ofNat count ++ " digits; use sys.set_int_max_str_digits() to increase the limit"

inductive NumeralFault where
  | notDecimal (t : Text)
  | tooManyDigits (count : Nat)
  deriving DecidableEq, Repr

/-- The wording of a numeral fault; at most 200 code points of the quoted text are shown. -/
def NumeralFault.describe : NumeralFault → Text
  | .notDecimal t =>
    let shown : Text := (quote t).take 200
    "invalid literal for int() with base 10: " ++ shown
  | .tooManyDigits count => digitLimitText count

/-- The value of a run of decimal digits, up to the first code point that is none. -/
def decimalPrefix : Text → List Nat
  | [] => []
  | c :: rest =>
    match c.decimalValue? with
    | some d => d :: decimalPrefix rest
    | none => []

/-- The whole number that a text of digits spells. The limit is tested before what follows the
decimal digits. -/
def readNumeral (t : Text) : Except NumeralFault Nat :=
  let digits := decimalPrefix t
  if digitLimit < digits.length then .error (.tooManyDigits digits.length)
  else if digits.length = t.length ∧ t ≠ [] then
    .ok (digits.foldl (fun n d => n * 10 + d) 0)
  else .error (.notDecimal t)

/-- Whether a code point may stand around a number: a blank of any script. The four separators of
information, from 1C to 1F, may not. -/
def isBlank (c : CodePoint) : Bool :=
  (0x09 ≤ c.val && c.val ≤ 0x0D) || c = 0x20 || c = 0x85 || c = 0xA0 ||
    c = 0x1680 || (0x2000 ≤ c.val && c.val ≤ 0x200A) || c = 0x2028 || c = 0x2029 || c = 0x202F ||
    c = 0x205F || c = 0x3000

/-- The digits of a number that may have a single underscore between two of them. -/
def spacedDigits? : Text → Option (List Nat)
  | [] => none
  | [c] => c.decimalValue?.map fun d => [d]
  | c :: next :: rest =>
    match c.decimalValue? with
    | none => none
    | some d =>
      if next = 0x5F then (spacedDigits? rest).map (d :: ·)
      else (spacedDigits? (next :: rest)).map (d :: ·)

def magnitude? (t : Text) : Option Nat :=
  match spacedDigits? t with
  | none => none
  | some digits =>
    if digitLimit < digits.length then none
    else some (digits.foldl (fun n d => n * 10 + d) 0)

/-- The integer that a text spells in decimal digits of any script, with blanks around it and a
sign before it if there are any. -/
def readInteger? (t : Text) : Option Int :=
  let inner := ((t.dropWhile isBlank).reverse.dropWhile isBlank).reverse
  match inner with
  | [] => none
  | c :: rest =>
    if c = 0x2D then (magnitude? rest).map fun n => -(n : Int)
    else if c = 0x2B then (magnitude? rest).map Int.ofNat
    else (magnitude? inner).map Int.ofNat

/-- Whether a text consists of digits, and of at least one. -/
def isNumeric (t : Text) : Bool :=
  !t.isEmpty && t.all (·.isDigit)

end StateOwnership.Text
