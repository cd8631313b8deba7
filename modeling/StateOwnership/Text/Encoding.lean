import StateOwnership.Text.Utf8

/-!
# Encoding forms of documents

The encoding form of a document is told from its byte order mark or, without one, from the
positions of the zero octets among its first four. In every form surrogates are accepted.
-/

namespace StateOwnership.Text

/-- What the first octets of a document say about its encoding form: the form, and the number of
octets of a byte order mark. -/
structure Detected where
  codec : Codec
  mark : Nat
  deriving DecidableEq, Repr

def detect : Bytes → Detected
  -- The mark of the 32-bit form begins like that of the 16-bit form, so it is tried first.
  | 0x00 :: 0x00 :: 0xFE :: 0xFF :: _ => ⟨.utf32be, 4⟩
  | 0xFF :: 0xFE :: 0x00 :: 0x00 :: _ => ⟨.utf32le, 4⟩
  | 0xFE :: 0xFF :: _ => ⟨.utf16be, 2⟩
  | 0xFF :: 0xFE :: _ => ⟨.utf16le, 2⟩
  | 0xEF :: 0xBB :: 0xBF :: _ => ⟨.utf8, 3⟩
  -- Documents begin with ASCII, whose high octets are zero in the wider forms.
  | a :: b :: c :: d :: _ =>
    if a = 0 then
      if b = 0 then ⟨.utf32be, 0⟩ else ⟨.utf16be, 0⟩
    else if b = 0 then
      if c = 0 && d = 0 then ⟨.utf32le, 0⟩ else ⟨.utf16le, 0⟩
    else ⟨.utf8, 0⟩
  | [a, b] => if a = 0 then ⟨.utf16be, 0⟩ else if b = 0 then ⟨.utf16le, 0⟩ else ⟨.utf8, 0⟩
  | _ => ⟨.utf8, 0⟩

inductive ByteOrder where
  | little
  | big
  deriving DecidableEq, Repr

def unit16 (order : ByteOrder) (a b : UInt8) : Nat :=
  match order with
  | .little => b.toNat * 0x100 + a.toNat
  | .big => a.toNat * 0x100 + b.toNat

def units16 (codec : Codec) (order : ByteOrder) : (position : Nat) → Bytes →
    Except DecodingFault (List CodePoint)
  | _, [] => .ok []
  | position, [a] => .error ⟨codec, a, position, position + 1, .truncated⟩
  | position, a :: b :: rest =>
    (units16 codec order (position + 2) rest).map (codePointOf (unit16 order a b) :: ·)

/-- Code units with every pair of surrogates joined; a surrogate without partner stays. -/
def joinPairs : List CodePoint → Text
  | high :: low :: rest =>
    if high.isHighSurrogate && low.isLowSurrogate then
      CodePoint.joinSurrogates high low :: joinPairs rest
    else high :: joinPairs (low :: rest)
  | rest => rest

def units32 (codec : Codec) (order : ByteOrder) : (position : Nat) → Bytes →
    Except DecodingFault Text
  | _, [] => .ok []
  | position, a :: b :: c :: d :: rest =>
    let n :=
      match order with
      | .little => unit16 .little c d * 0x10000 + unit16 .little a b
      | .big => unit16 .big a b * 0x10000 + unit16 .big c d
    if n < 0x110000 then (units32 codec order (position + 4) rest).map (codePointOf n :: ·)
    else .error ⟨codec, a, position, position + 4, .outOfRange⟩
  | position, a :: rest => .error ⟨codec, a, position, position + 1 + rest.length, .truncated⟩

/-- The text of a document. Positions in a fault count the byte order mark of the 16-bit and
32-bit forms, but not that of UTF-8. -/
def decodeDocument (octets : Bytes) : Except DecodingFault Text :=
  let detected := detect octets
  let content := octets.drop detected.mark
  match detected.codec with
  | .utf8 => decodeUtf8 .pass content
  | .utf16le => (units16 .utf16le .little detected.mark content).map joinPairs
  | .utf16be => (units16 .utf16be .big detected.mark content).map joinPairs
  | .utf32le => units32 .utf32le .little detected.mark content
  | .utf32be => units32 .utf32be .big detected.mark content

end StateOwnership.Text
