import StateOwnership.Json.Basic
import StateOwnership.Text.Digits
import StateOwnership.Text.Encoding

/-!
# Reading documents

A reader takes what is left of the text and returns a value with what is left after it. It stops at
the first fault, whose place is told by the number of code points that are left there.

Next to standard documents the reader accepts `NaN`, `Infinity` and `-Infinity`, and surrogates
without a partner. It bounds the nesting of containers and the number of digits of an integer.
-/

namespace StateOwnership.Json

open Text (doubleQuote backslash)

/-! ## 1. Faults -/

/-- What a document lacks, or has too much of, at a place. -/
inductive Problem where
  | expectingValue
  | expectingName
  | expectingColon
  | expectingComma
  | extraData
  | unterminatedString
  | controlCharacter
  | escape
  | unicodeEscape
  | byteOrderMark
  deriving DecidableEq, Repr

def Problem.describe : Problem → Text
  | .expectingValue => "Expecting value"
  | .expectingName => "Expecting property name enclosed in double quotes"
  | .expectingColon => "Expecting ':' delimiter"
  | .expectingComma => "Expecting ',' delimiter"
  | .extraData => "Extra data"
  | .unterminatedString => "Unterminated string starting at"
  | .controlCharacter => "Invalid control character at"
  | .escape => "Invalid \\escape"
  | .unicodeEscape => "Invalid \\uXXXX escape"
  | .byteOrderMark => "Unexpected UTF-8 BOM (decode using utf-8-sig)"

inductive Container where
  | array
  | object
  deriving DecidableEq, Repr

def Container.name : Container → Text
  | .array => "array"
  | .object => "object"

/-- Why a reader stopped. A place is given by the number of code points left. -/
inductive Stop where
  | problem (what : Problem) (left : Nat)
  | tooDeep (container : Container)
  | tooManyDigits (count : Nat)
  deriving DecidableEq, Repr

/-- A place in a text. Lines and columns count from one, the offset from zero. -/
structure Position where
  line : Nat
  column : Nat
  offset : Nat
  deriving DecidableEq, Repr

/-- The place at which `left` code points of a text are left. -/
def Position.ofLeft (t : Text) (left : Nat) : Position :=
  let passed := t.take (t.length - left)
  let sinceNewline := passed.reverse.takeWhile (· != 0x0A)
  ⟨passed.count 0x0A + 1, sinceNewline.length + 1, passed.length⟩

inductive Fault where
  | encoding (fault : Text.DecodingFault)
  | malformed (what : Problem) (place : Position)
  | tooDeep (container : Container)
  | tooManyDigits (count : Nat)
  deriving DecidableEq, Repr

def Fault.describe : Fault → Text
  | .encoding fault => fault.describe
  | .malformed what place =>
    what.describe ++ ": line " ++ Text.ofNat place.line ++ " column " ++ Text.ofNat place.column ++
      " (char " ++ Text.ofNat place.offset ++ ")"
  | .tooDeep container =>
    "maximum recursion depth exceeded while decoding a JSON " ++ container.name ++
      " from a unicode string"
  | .tooManyDigits count => Text.digitLimitText count

def Stop.inText (t : Text) : Stop → Fault
  | .problem what left => .malformed what (Position.ofLeft t left)
  | .tooDeep container => .tooDeep container
  | .tooManyDigits count => .tooManyDigits count

abbrev Reader (α : Type) := Text → Except Stop (α × Text)

/-! ## 2. Blanks and strings -/

/-- Space, tab, line feed and carriage return. -/
def isBlankChar (c : CodePoint) : Bool :=
  c = 0x20 || c = 0x09 || c = 0x0A || c = 0x0D

def skipBlanks (t : Text) : Text :=
  t.dropWhile isBlankChar

def hexQuad? (a b c d : CodePoint) : Option CodePoint := do
  let a ← a.hexValue?
  let b ← b.hexValue?
  let c ← c.hexValue?
  let d ← d.hexValue?
  return Text.codePointOf (a * 0x1000 + b * 0x100 + c * 0x10 + d)

/-- What the letter after a backslash stands for. -/
def escaped? (c : CodePoint) : Option CodePoint :=
  if c = doubleQuote || c = backslash || c = 0x2F then some c
  else if c = 0x62 then some 0x08
  else if c = 0x66 then some 0x0C
  else if c = 0x6E then some 0x0A
  else if c = 0x72 then some 0x0D
  else if c = 0x74 then some 0x09
  else none

def prepend (c : CodePoint) (read : Except Stop (Text × Text)) : Except Stop (Text × Text) :=
  read.map fun (t, rest) => (c :: t, rest)

/-- The letter of the escapes that give a code unit in hexadecimal. -/
def unitEscape : CodePoint := 0x75

/-- The rest of a string that opens where `opening` starts. A unit in hexadecimal is followed by at
least one code point, and so is the second one of a pair. -/
def stringFrom (opening : Text) : Reader Text
  | [] => .error (.problem .unterminatedString opening.length)
  | c :: rest =>
    if c = doubleQuote then .ok ([], rest)
    else if c = backslash then
      match rest with
      | [] => .error (.problem .unterminatedString opening.length)
      | e :: rest =>
        if e = unitEscape then
          match rest with
          | h₁ :: h₂ :: h₃ :: h₄ :: next :: after =>
            match hexQuad? h₁ h₂ h₃ h₄ with
            | none => .error (.problem .unicodeEscape (after.length + 6))
            | some high =>
              -- A first half looks for its partner in the escape behind it. If there is none, the
              -- half stays and the escape is read on its own.
              if high.isHighSurrogate && next = backslash then
                match after with
                | u :: l₁ :: l₂ :: l₃ :: l₄ :: last :: more =>
                  if u = unitEscape then
                    match hexQuad? l₁ l₂ l₃ l₄ with
                    | none => .error (.problem .unicodeEscape (more.length + 6))
                    | some low =>
                      if low.isLowSurrogate then
                        prepend (CodePoint.joinSurrogates high low)
                          (stringFrom opening (last :: more))
                      else
                        prepend high
                          (stringFrom opening
                            (next :: u :: l₁ :: l₂ :: l₃ :: l₄ :: last :: more))
                  else
                    prepend high
                      (stringFrom opening (next :: u :: l₁ :: l₂ :: l₃ :: l₄ :: last :: more))
                | after => prepend high (stringFrom opening (next :: after))
              else prepend high (stringFrom opening (next :: after))
          | rest => .error (.problem .unicodeEscape (rest.length + 1))
        else
          match escaped? e with
          | some c => prepend c (stringFrom opening rest)
          | none => .error (.problem .escape (rest.length + 2))
    else if c.val < 0x20 then .error (.problem .controlCharacter (rest.length + 1))
    else prepend c (stringFrom opening rest)

/-! ## 3. Numbers -/

def digitRun (t : Text) : Text × Text :=
  (t.takeWhile (·.isAsciiDigit), t.dropWhile (·.isAsciiDigit))

/-- The digits of a fraction, if a point and a digit come next. -/
def fraction (t : Text) : Text × Text :=
  match t with
  | point :: rest =>
    let (digits, after) := digitRun rest
    if point = 0x2E && digits ≠ [] then (digits, after) else ([], t)
  | [] => ([], t)

/-- The exponent, if its letter, perhaps a sign, and a digit come next. -/
def exponent? (t : Text) : Option Int × Text :=
  match t with
  | letter :: rest =>
    if letter = 0x65 || letter = 0x45 then
      let (negative, unsigned) :=
        match rest with
        | sign :: more =>
          if sign = 0x2D then (true, more) else if sign = 0x2B then (false, more) else (false, rest)
        | [] => (false, rest)
      let (digits, after) := digitRun unsigned
      if digits = [] then (none, t)
      else
        let magnitude := Text.decimalValue digits
        (some (if negative then -(magnitude : Int) else (magnitude : Int)), after)
    else (none, t)
  | [] => (none, t)

/-- The whole part of a number: a zero, or digits that do not start with one. -/
def wholePart (t : Text) : Text × Text :=
  match t with
  | c :: rest => if c = 0x30 then ([c], rest) else digitRun t
  | [] => ([], [])

/-- A number. It is an integer unless it has a fraction or an exponent. -/
def number : Reader Json := fun t =>
  let (negative, unsigned) :=
    match t with
    | sign :: rest => if sign = 0x2D then (true, rest) else (false, t)
    | [] => (false, t)
  let (whole, afterWhole) := wholePart unsigned
  if whole = [] then .error (.problem .expectingValue t.length)
  else
    let (places, afterPlaces) := fraction afterWhole
    let (power, rest) := exponent? afterPlaces
    -- Only integers are bounded; other numbers are rounded, however many digits they have.
    if places = [] ∧ power = none then
      if Text.digitLimit < whole.length then .error (.tooManyDigits whole.length)
      else
        let magnitude : Int := Text.decimalValue whole
        .ok (.int (if negative then -magnitude else magnitude), rest)
    else
      .ok (.float (Binary64.ofDecimal negative (Text.decimalValue (whole ++ places))
        (power.getD 0 - places.length)), rest)

/-! ## 4. Values -/

def words : List (Text × Json) :=
  [("null", .null), ("true", .bool true), ("false", .bool false), ("NaN", .float .notANumber),
    ("Infinity", .float (.infinity false)), ("-Infinity", .float (.infinity true))]

/-- A word or a number. -/
def scalar : Reader Json := fun t =>
  match words.find? fun (word, _) => word.isPrefixOf t with
  | some (word, value) => .ok (value, t.drop word.length)
  | none => number t

/-- The items of an array from the first on, up to its end; `fuel` bounds their number. -/
def items (item : Reader Json) : (fuel : Nat) → Reader (List Json)
  | 0, t => .error (.problem .expectingValue t.length)
  | fuel + 1, t => do
    let (value, rest) ← item t
    match skipBlanks rest with
    | c :: rest =>
      if c = 0x5D then return ([value], rest)
      else if c = 0x2C then
        let (values, rest) ← items item fuel (skipBlanks rest)
        return (value :: values, rest)
      else throw (.problem .expectingComma (rest.length + 1))
    | [] => throw (.problem .expectingComma 0)

/-- A name with the colon after it. -/
def name : Reader Text := fun t =>
  match t with
  | c :: rest =>
    if c = doubleQuote then do
      let (name, rest) ← stringFrom t rest
      match skipBlanks rest with
      | c :: rest =>
        if c = 0x3A then return (name, skipBlanks rest)
        else throw (.problem .expectingColon (rest.length + 1))
      | [] => throw (.problem .expectingColon 0)
    else .error (.problem .expectingName t.length)
  | [] => .error (.problem .expectingName 0)

/-- The members of an object from the first on, up to its end; `fuel` bounds their number. -/
def members (item : Reader Json) : (fuel : Nat) → Reader (List (Text × Json))
  | 0, t => .error (.problem .expectingName t.length)
  | fuel + 1, t => do
    let (name, rest) ← name t
    let (value, rest) ← item rest
    match skipBlanks rest with
    | c :: rest =>
      if c = 0x7D then return ([(name, value)], rest)
      else if c = 0x2C then
        let (others, rest) ← members item fuel (skipBlanks rest)
        return ((name, value) :: others, rest)
      else throw (.problem .expectingComma (rest.length + 1))
    | [] => throw (.problem .expectingComma 0)

/-- An object in which a name that is listed again takes the later value in the earlier place. -/
def ofMembers (listed : List (Text × Json)) : Json :=
  .obj (listed.foldl (fun members (name, value) => Entries.put name value members) [])

/-- A value in which containers nest at most `depth` deep; `fuel` bounds the number of items of
each. -/
def value (fuel : Nat) : (depth : Nat) → Reader Json
  | depth, t =>
    match t with
    | [] => .error (.problem .expectingValue 0)
    | c :: rest =>
      if c = doubleQuote then
        (stringFrom t rest).map fun (s, rest) => (.str s, rest)
      else if c = 0x5B then
        match depth with
        | 0 => .error (.tooDeep .array)
        | depth + 1 =>
          match skipBlanks rest with
          | c :: after =>
            if c = 0x5D then .ok (.arr [], after)
            else
              (items (value fuel depth) fuel (c :: after)).map fun (vs, rest) => (.arr vs, rest)
          | [] => .error (.problem .expectingValue 0)
      else if c = 0x7B then
        match depth with
        | 0 => .error (.tooDeep .object)
        | depth + 1 =>
          match skipBlanks rest with
          | c :: after =>
            if c = 0x7D then .ok (.obj [], after)
            else
              (members (value fuel depth) fuel (c :: after)).map fun (ms, rest) =>
                (ofMembers ms, rest)
          | [] => .error (.problem .expectingName 0)
      else scalar t

/-! ## 5. Documents -/

def depthLimit : Nat := 990

/-- A value with blanks around it and nothing else. -/
def document (t : Text) : Except Stop Json := do
  let (read, rest) ← value t.length depthLimit (skipBlanks t)
  match skipBlanks rest with
  | [] => return read
  | rest => throw (.problem .extraData rest.length)

/-- The value of a text that may start with a byte order mark only if that was removed before. -/
def ofMarklessText (t : Text) : Except Fault Json :=
  (document t).mapError (Stop.inText t)

def ofText (t : Text) : Except Fault Json :=
  if t.head? = some 0xFEFF then .error (.malformed .byteOrderMark (Position.ofLeft t t.length))
  else ofMarklessText t

def ofBytes (octets : Bytes) : Except Fault Json :=
  match Text.decodeDocument octets with
  | .error fault => .error (.encoding fault)
  | .ok t => ofMarklessText t

end StateOwnership.Json
