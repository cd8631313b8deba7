import StateOwnership.DateTime.Calendar
import StateOwnership.Text.Utf8

/-!
# Reading points in time

The standard forms of a date are `YYYY-MM-DD` and `YYYYMMDD`, and with weeks `YYYY-Www-D` and
`YYYYWwwD`, where the day may be missing. Behind a date and any single code point stands the time of
day, `HH`, `HH:MM` or `HH:MM:SS` with or without the colons, and behind that a fraction and the
distance from universal time, each if there is one.

Numbers out of range are noticed once the form is clear.
-/

namespace StateOwnership.DateTime

/-- Why a text is no point in time: it has no standard form, or the number that is named is out of
range. -/
inductive Fault where
  | malformed (t : Text)
  | year (number : Nat)
  | month
  | day
  | hour
  | minute
  | second
  /-- The distance from universal time, in microseconds, is a day or more. -/
  | offset (distance : Int)
  deriving DecidableEq, Repr

/-! ## 1. Octets

Forms are read octet by octet; behind the end of a text stands an octet that is zero. -/

def octet (c : Char) : UInt8 := UInt8.ofNat c.toNat

/-- The first octet, zero at the end. -/
def next (octets : Bytes) : UInt8 := octets.headD 0

def isDigit (o : UInt8) : Bool := octet '0' ≤ o && o ≤ octet '9'

/-- A number of the given number of digits, read behind the digits of `n`. -/
def number? (n : Nat) : (digits : Nat) → Bytes → Option (Nat × Bytes)
  | 0, octets => some (n, octets)
  | _, [] => none
  | digits + 1, o :: rest =>
    if isDigit o then number? (n * 10 + (o - octet '0').toNat) digits rest else none

/-- What stands behind a hyphen, if there has to be one. -/
def behindHyphen? (needed : Bool) (octets : Bytes) : Option Bytes :=
  if !needed then some octets
  else if next octets = octet '-' then some octets.tail
  else none

/-! ## 2. Dates -/

/-- Where a date with a week ends when its parts are not separated: the day belongs to it if the
digits would not come in pairs otherwise. -/
def weekDateEnd (octets : Bytes) : Nat :=
  let stop := 7 + ((octets.drop 7).takeWhile isDigit).length
  if stop < 9 then stop else if stop % 2 = 0 then 7 else 8

/-- Where the date at the beginning of a text ends. -/
def dateEnd (octets : Bytes) : Nat :=
  let o (position : Nat) : UInt8 := octets.getD position 0
  if octets.length = 7 then 7
  else if o 4 = octet '-' then
    if o 5 = octet 'W' then
      if o 8 = octet '-' && !isDigit (o 10) then 10 else 8
    else 10
  else if o 4 = octet 'W' then weekDateEnd octets
  else 8

/-- The year, month and day of a date; `stop` is where it ends. -/
def date? (stop : Nat) (octets : Bytes) : Option (Nat × Nat × Nat) := do
  let (year, rest) ← number? 0 4 octets
  let separated : Bool := next rest = octet '-'
  let rest := if separated then rest.tail else rest
  if next rest = octet 'W' then
    let (week, rest) ← number? 0 2 rest.tail
    if octets.length - rest.length < stop then
      let (day, _) ← number? 0 1 (← behindHyphen? separated rest)
      ofWeek? year week day
    else ofWeek? year week 1
  else
    let (month, rest) ← number? 0 2 rest
    let (day, _) ← number? 0 2 (← behindHyphen? separated rest)
    return (year, month, day)

/-! ## 3. Times of day -/

/-- A time of day, and whether anything stands behind it. -/
structure Clock where
  numbers : List Nat
  microsecond : Nat
  continued : Bool
  deriving DecidableEq, Repr

namespace Clock

def number (clock : Clock) (place : Nat) : Nat := clock.numbers.getD place 0

/-- The distance that a clock shows, in microseconds. -/
def size (clock : Clock) : Nat :=
  (clock.number 0 * 3600 + clock.number 1 * 60 + clock.number 2) * perSecond + clock.microsecond

end Clock

/-- The clock of some numbers and a fraction that begins here, in the next `room` octets. Digits
behind the sixth do not count. -/
def fraction? (numbers : List Nat) (room : Nat) (octets : Bytes) : Option Clock := do
  let digits := min 6 room
  let (n, rest) ← number? 0 digits octets
  let microsecond := (List.replicate (6 - digits) 10).foldl (· * ·) n
  return ⟨numbers, microsecond, next (rest.dropWhile isDigit) ≠ 0⟩

/-- The clock whose next number begins here, in the next `room` octets, behind some numbers;
`count` more numbers can follow. Either all numbers are separated by colons or none. -/
def clockFrom? (separated : Bool) : (count : Nat) → (numbers : List Nat) → (room : Nat) → Bytes →
    Option Clock
  | 0, numbers, room, octets => fraction? numbers room octets
  | count + 1, numbers, room, octets => do
    let (n, rest) ← number? 0 2 octets
    let numbers := numbers ++ [n]
    let mark := next rest
    let separated := if numbers.length = 1 then mark = octet ':' else separated
    if room ≤ 3 then return ⟨numbers, 0, mark ≠ 0⟩
    else if separated && mark = octet ':' then
      clockFrom? separated count numbers (room - 3) rest.tail
    else if mark = octet '.' || mark = octet ',' then fraction? numbers (room - 3) rest.tail
    else if separated then none
    else clockFrom? separated count numbers (room - 2) rest

def clock? (room : Nat) (octets : Bytes) : Option Clock :=
  clockFrom? false 3 [] room octets

/-- A mark that the distance from universal time starts with. -/
def isZoneMark (o : UInt8) : Bool :=
  o = octet '+' || o = octet '-' || o = octet 'Z'

/-- The distance from universal time that is spelt here, in microseconds. Fractions of a second
alone do not count. -/
def zone? : Bytes → Option Int
  | [] => none
  | mark :: rest =>
    if mark = octet 'Z' then if next rest = 0 then some 0 else none
    else
      match clock? rest.length rest with
      | none => none
      | some clock =>
        if clock.continued then none
        else if clock.size < perSecond then some 0
        else some (if mark = octet '-' then -(clock.size : Int) else clock.size)

def time? (octets : Bytes) : Option (Clock × Option Int) :=
  let room := (octets.takeWhile fun o => !isZoneMark o).length
  match clock? room octets with
  | none => none
  | some clock =>
    if room = octets.length then if clock.continued then none else some (clock, none)
    else (zone? (octets.drop room)).map fun offset => (clock, some offset)

/-! ## 4. Points in time -/

/-- The number of octets of a code point with the given first octet. -/
def octetsFrom (first : UInt8) : Nat :=
  if first < 0x80 then 1 else if first < 0xE0 then 2 else if first < 0xF0 then 3 else 4

/-- The form of a point in time, whose numbers may be out of range. -/
def form? (octets : Bytes) : Option DateTime := do
  let stop := dateEnd octets
  let (year, month, day) ← date? stop octets
  let behind := octets.drop stop
  let (clock, offset) ←
    match behind with
    | [] => some (⟨[], 0, false⟩, none)
    | first :: _ => time? (behind.drop (octetsFrom first))
  let (hour, minute, second) := (clock.number 0, clock.number 1, clock.number 2)
  return ⟨year, month, day, hour, minute, second, clock.microsecond, offset⟩

/-- A point in time, if its numbers are in range. -/
def checked (d : DateTime) : Except Fault DateTime :=
  let offset := d.offset.getD 0
  if 86400 * perSecond ≤ offset.natAbs then .error (.offset offset)
  else if d.year < 1 || 9999 < d.year then .error (.year d.year)
  else if d.month < 1 || 12 < d.month then .error .month
  else if d.day < 1 || daysInMonth d.year d.month < d.day then .error .day
  else if 23 < d.hour then .error .hour
  else if 59 < d.minute then .error .minute
  else if 59 < d.second then .error .second
  else .ok d

def ofStandard (t : Text) : Except Fault DateTime :=
  match if t.length < 7 then none else form? (t.flatMap Text.utf8Octets) with
  | none => .error (.malformed t)
  | some d => checked d

end StateOwnership.DateTime
