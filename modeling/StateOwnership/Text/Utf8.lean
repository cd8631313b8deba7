import StateOwnership.Text.Quoted

/-!
# UTF-8

Both directions between texts and octets. Decoding reports the first octet sequence that is not
well formed together with its extent; encoding reports the first run of surrogates.

A surrogate has a three-octet form that well-formed UTF-8 excludes. `Surrogates.pass` accepts it.
-/

namespace StateOwnership.Text

inductive Codec where
  | utf8
  | utf16le
  | utf16be
  | utf32le
  | utf32be
  deriving DecidableEq, Repr

def Codec.name : Codec → Text
  | .utf8 => "utf-8"
  | .utf16le => "utf-16-le"
  | .utf16be => "utf-16-be"
  | .utf32le => "utf-32-le"
  | .utf32be => "utf-32-be"

inductive DecodingReason where
  | invalidStart
  | invalidContinuation
  | unexpectedEnd
  | truncated
  | outOfRange
  deriving DecidableEq, Repr

def DecodingReason.describe : DecodingReason → Text
  | .invalidStart => "invalid start byte"
  | .invalidContinuation => "invalid continuation byte"
  | .unexpectedEnd => "unexpected end of data"
  | .truncated => "truncated data"
  | .outOfRange => "code point not in range(0x110000)"

/-- Octets at positions `start` up to, but not including, `stop` that spell no code point. -/
structure DecodingFault where
  codec : Codec
  first : UInt8
  start : Nat
  stop : Nat
  reason : DecodingReason
  deriving DecidableEq, Repr

/-- The wording of a decoding fault: a single octet is shown, several are located only. -/
def DecodingFault.describe (f : DecodingFault) : Text :=
  "'" ++ f.codec.name ++ "' codec can't decode " ++
    (if f.stop = f.start + 1 then
      "byte 0x" ++ hexPadded 2 f.first.toNat ++ " in position " ++ ofNat f.start
    else
      "bytes in position " ++ ofNat f.start ++ "-" ++ ofNat (f.stop - 1)) ++
    ": " ++ f.reason.describe

/-- A run of surrogates at positions `start` up to, but not including, `stop`. -/
structure EncodingFault where
  first : CodePoint
  start : Nat
  stop : Nat
  deriving DecidableEq, Repr

/-- The wording of an encoding fault: a single surrogate is shown, several are located only. -/
def EncodingFault.describe (f : EncodingFault) : Text :=
  "'utf-8' codec can't encode " ++
    (if f.stop = f.start + 1 then
      "character '\\u" ++ hexPadded 4 f.first.val ++ "' in position " ++ ofNat f.start
    else
      "characters in position " ++ ofNat f.start ++ "-" ++ ofNat (f.stop - 1)) ++
    ": surrogates not allowed"

/-- What becomes of the octets of a surrogate. -/
inductive Surrogates where
  | refuse
  | pass
  deriving DecidableEq, Repr

/-- An octet of the form `10xxxxxx`. -/
def isContinuation (b : UInt8) : Bool :=
  0x80 ≤ b && b ≤ 0xBF

/-- The code point of a number that is known to be small enough. -/
def codePointOf (n : Nat) : CodePoint :=
  Fin.ofNat 0x110000 n

/-- The first code point of the octets `b :: rest`, with the number of octets of `rest` that
belong to it; or the extent of the ill-formed sequence and the reason. -/
def utf8Head (surrogates : Surrogates) (b : UInt8) (rest : Bytes) :
    Except (Nat × DecodingReason) (CodePoint × Nat) :=
  if b < 0x80 then .ok (codePointOf b.toNat, 0)
  else if b < 0xC2 then .error (1, .invalidStart)
  else if b < 0xE0 then
    -- two octets
    match rest with
    | [] => .error (1, .unexpectedEnd)
    | c :: _ =>
      if isContinuation c then .ok (codePointOf ((b.toNat - 0xC0) * 0x40 + (c.toNat - 0x80)), 1)
      else .error (1, .invalidContinuation)
  else if b < 0xF0 then
    -- three octets, neither an overlong form nor a surrogate
    let second (c : UInt8) : Bool :=
      isContinuation c && (b != 0xE0 || 0xA0 ≤ c) && (b != 0xED || c < 0xA0)
    match rest with
    | [] => .error (1, .unexpectedEnd)
    | [c] => if second c then .error (2, .unexpectedEnd) else .error (1, .invalidContinuation)
    | c :: d :: _ =>
      let n := (b.toNat - 0xE0) * 0x1000 + (c.toNat - 0x80) * 0x40 + (d.toNat - 0x80)
      if second c then
        if isContinuation d then .ok (codePointOf n, 2) else .error (2, .invalidContinuation)
      else if surrogates = .pass && b = 0xED && isContinuation c && isContinuation d then
        .ok (codePointOf n, 2)
      else .error (1, .invalidContinuation)
  else if b < 0xF5 then
    -- four octets, neither an overlong form nor beyond the last code point
    let second (c : UInt8) : Bool :=
      isContinuation c && (b != 0xF0 || 0x90 ≤ c) && (b != 0xF4 || c < 0x90)
    match rest with
    | [] => .error (1, .unexpectedEnd)
    | c :: rest =>
      if !second c then .error (1, .invalidContinuation)
      else
        match rest with
        | [] => .error (2, .unexpectedEnd)
        | d :: rest =>
          if !isContinuation d then .error (2, .invalidContinuation)
          else
            match rest with
            | [] => .error (3, .unexpectedEnd)
            | e :: _ =>
              if isContinuation e then
                .ok (codePointOf ((b.toNat - 0xF0) * 0x40000 + (c.toNat - 0x80) * 0x1000 +
                  (d.toNat - 0x80) * 0x40 + (e.toNat - 0x80)), 3)
              else .error (3, .invalidContinuation)
  else .error (1, .invalidStart)

/-- Decoding from position `position` on, where the first `skip` octets belong to a code point
that has been read already. -/
def utf8From (surrogates : Surrogates) : (skip position : Nat) → Bytes → Except DecodingFault Text
  | _, _, [] => .ok []
  | skip + 1, position, _ :: rest => utf8From surrogates skip (position + 1) rest
  | 0, position, b :: rest =>
    match utf8Head surrogates b rest with
    | .ok (c, more) => (utf8From surrogates more (position + 1) rest).map (c :: ·)
    | .error (width, reason) => .error ⟨.utf8, b, position, position + width, reason⟩

def decodeUtf8 (surrogates : Surrogates) (octets : Bytes) : Except DecodingFault Text :=
  utf8From surrogates 0 0 octets

/-- The octets of one code point, surrogates treated like their neighbours. -/
def utf8Octets (c : CodePoint) : Bytes :=
  let n := c.val
  if n < 0x80 then [UInt8.ofNat n]
  else if n < 0x800 then [UInt8.ofNat (0xC0 + n / 0x40), UInt8.ofNat (0x80 + n % 0x40)]
  else if n < 0x10000 then
    [UInt8.ofNat (0xE0 + n / 0x1000), UInt8.ofNat (0x80 + n / 0x40 % 0x40),
      UInt8.ofNat (0x80 + n % 0x40)]
  else
    [UInt8.ofNat (0xF0 + n / 0x40000), UInt8.ofNat (0x80 + n / 0x1000 % 0x40),
      UInt8.ofNat (0x80 + n / 0x40 % 0x40), UInt8.ofNat (0x80 + n % 0x40)]

/-- The first surrogate that is not `allowed`, with the surrogates that follow it directly. -/
def surrogateFaultFrom (allowed : CodePoint → Bool) : (position : Nat) → Text → Option EncodingFault
  | _, [] => none
  | position, c :: rest =>
    if c.isSurrogate && !allowed c then
      some ⟨c, position, position + 1 + (rest.takeWhile (·.isSurrogate)).length⟩
    else surrogateFaultFrom allowed (position + 1) rest

def encodeUtf8 (t : Text) : Except EncodingFault Bytes :=
  match surrogateFaultFrom (fun _ => false) 0 t with
  | some fault => .error fault
  | none => .ok (t.flatMap utf8Octets)

end StateOwnership.Text
