/-!
# Text

A text is a list of code points. Surrogates are code points like any other: a document may spell
one with an escape that has no partner, and it is then kept, compared and printed as it stands.

String literals stand for the texts they spell.
-/

namespace StateOwnership

/-- A Unicode code point, surrogates included. -/
abbrev CodePoint := Fin 0x110000

/-- Every number literal stands for a code point. -/
instance CodePoint.instNeZero : @NeZero Nat Zero.ofOfNat0 0x110000 := ⟨Nat.succ_ne_zero _⟩

abbrev Text := List CodePoint

abbrev Bytes := List UInt8

namespace CodePoint

def ofChar (c : Char) : CodePoint :=
  ⟨c.toNat, by
    have h : c.val.toNat.isValidChar := c.valid
    show c.val.toNat < 0x110000
    unfold Nat.isValidChar at h
    omega⟩

/-- The character of a code point; a surrogate has none and yields the replacement character. -/
def toChar (c : CodePoint) : Char :=
  if h : c.val.isValidChar then Char.ofNatAux c.val h else Char.ofNat 0xFFFD

def isHighSurrogate (c : CodePoint) : Bool :=
  0xD800 ≤ c.val && c.val ≤ 0xDBFF

def isLowSurrogate (c : CodePoint) : Bool :=
  0xDC00 ≤ c.val && c.val ≤ 0xDFFF

def isSurrogate (c : CodePoint) : Bool :=
  0xD800 ≤ c.val && c.val ≤ 0xDFFF

def joinSurrogates (high low : CodePoint) : CodePoint :=
  Fin.ofNat 0x110000 (0x10000 + (high.val - 0xD800) * 0x400 + (low.val - 0xDC00))

def isAsciiDigit (c : CodePoint) : Bool :=
  0x30 ≤ c.val && c.val ≤ 0x39

/-- The digit of a number below sixteen, letters in lower case. -/
def hexDigit (n : Nat) : CodePoint :=
  if n < 10 then Fin.ofNat 0x110000 (0x30 + n) else Fin.ofNat 0x110000 (0x57 + n)

def hexValue? (c : CodePoint) : Option Nat :=
  if 0x30 ≤ c.val && c.val ≤ 0x39 then some (c.val - 0x30)
  else if 0x61 ≤ c.val && c.val ≤ 0x66 then some (c.val - 0x57)
  else if 0x41 ≤ c.val && c.val ≤ 0x46 then some (c.val - 0x37)
  else none

/-- The lower-case form of an ASCII letter; any other code point is left alone. -/
def toAsciiLower (c : CodePoint) : CodePoint :=
  if 0x41 ≤ c.val && c.val ≤ 0x5A then Fin.ofNat 0x110000 (c.val + 0x20) else c

end CodePoint

namespace Text

def ofString (s : String) : Text :=
  s.toList.map CodePoint.ofChar

instance : Coe String Text := ⟨ofString⟩

/-- The string that a text spells, a surrogate shown as the replacement character. -/
def toString (t : Text) : String :=
  String.ofList (t.map CodePoint.toChar)

/-- The decimal digits of `n` in front of `rest`; `fuel` bounds their number. -/
def decimalDigits : (fuel n : Nat) → (rest : Text) → Text
  | 0, _, rest => rest
  | fuel + 1, n, rest =>
    if n < 10 then CodePoint.hexDigit n :: rest
    else decimalDigits fuel (n / 10) (CodePoint.hexDigit (n % 10) :: rest)

def ofNat (n : Nat) : Text :=
  decimalDigits (n + 1) n []

def ofInt : Int → Text
  | .ofNat n => ofNat n
  | .negSucc n => 0x2D :: ofNat (n + 1)

/-- The lowest `width` hexadecimal digits of `n`. -/
def hexPadded : (width n : Nat) → Text
  | 0, _ => []
  | width + 1, n => hexPadded width (n / 16) ++ [CodePoint.hexDigit (n % 16)]

def zeros (n : Nat) : Text :=
  List.replicate n 0x30

def spaces (n : Nat) : Text :=
  List.replicate n 0x20

/-- `n` in decimal, with zeros in front up to `width` digits. -/
def decimalPadded (width n : Nat) : Text :=
  let digits := ofNat n
  zeros (width - digits.length) ++ digits

def decimalValue (digits : Text) : Nat :=
  digits.foldl (fun n c => n * 10 + (c.val - 0x30)) 0

def joinWith (separator : Text) (parts : List Text) : Text :=
  separator.intercalate parts

/-- Lexicographic order by code point. -/
def before : Text → Text → Bool
  | [], [] => true
  | [], _ :: _ => true
  | _ :: _, [] => false
  | a :: s, b :: t => if a.val < b.val then true else if b.val < a.val then false else before s t

end Text
end StateOwnership
