import StateOwnership.Text.Basic

/-!
# Points in time

A date and a time of day, with their distance from universal time if it is known, and the three ways
in which they are written.
-/

namespace StateOwnership

structure DateTime where
  year : Nat
  month : Nat
  day : Nat
  hour : Nat
  minute : Nat
  second : Nat
  microsecond : Nat
  /-- How far the clock is ahead of universal time, in microseconds. -/
  offset : Option Int
  deriving DecidableEq, Repr

namespace DateTime

/-- Numbers of two digits each with a mark between them. -/
def fields (mark : Text) (numbers : List Nat) : Text :=
  Text.joinWith mark (numbers.map (Text.decimalPadded 2))

def fraction (microsecond : Nat) : Text :=
  if microsecond = 0 then [] else "." ++ Text.decimalPadded 6 microsecond

def perSecond : Nat := 1000000

/-- The standard form of a distance from universal time, with seconds only if they are needed. -/
def offsetForm (offset : Int) : Text :=
  let size := offset.natAbs
  let seconds := size / perSecond
  let fine : Text :=
    if size % (60 * perSecond) = 0 then []
    else ":" ++ Text.decimalPadded 2 (seconds % 60) ++ fraction (size % perSecond)
  (if offset < 0 then "-" else "+") ++ fields ":" [seconds / 3600, seconds / 60 % 60] ++ fine

/-- The standard form, with microseconds if there are any. -/
def standard (d : DateTime) : Text :=
  let date : Text := Text.decimalPadded 4 d.year ++ "-" ++ fields "-" [d.month, d.day]
  let time : Text := fields ":" [d.hour, d.minute, d.second]
  let zone : Text :=
    match d.offset with
    | none => []
    | some offset => offsetForm offset
  date ++ "T" ++ time ++ fraction d.microsecond ++ zone

/-- The form for readers, to the second. -/
def readable (d : DateTime) : Text :=
  Text.ofNat d.year ++ "-" ++ fields "-" [d.month, d.day] ++ " " ++
    fields ":" [d.hour, d.minute, d.second]

/-- The form for file names, to the second. -/
def compact (d : DateTime) : Text :=
  Text.ofNat d.year ++ fields [] [d.month, d.day] ++ "_" ++ fields [] [d.hour, d.minute, d.second]

end DateTime
end StateOwnership
