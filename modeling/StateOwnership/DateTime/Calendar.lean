import StateOwnership.DateTime

/-!
# The calendar

Lengths of months and years, and days counted in weeks. A week belongs to the year that its Thursday
lies in, so the first days of a year may belong to the last week of the year before, and the last
days to the first week of the year after.
-/

namespace StateOwnership.DateTime

def isLeap (year : Nat) : Bool :=
  year % 4 = 0 && (year % 100 ≠ 0 || year % 400 = 0)

def monthLengths (year : Nat) : List Nat :=
  [31, if isLeap year then 29 else 28, 31, 30, 31, 30, 31, 31, 30, 31, 30, 31]

def yearLength (year : Nat) : Nat :=
  if isLeap year then 366 else 365

/-- The number of days in a month that is counted from one. -/
def daysInMonth (year month : Nat) : Nat :=
  (monthLengths year).getD (month - 1) 0

/-- The day of the week that a year starts on; Monday is zero. -/
def firstWeekday (year : Nat) : Nat :=
  let before := year - 1
  (before * 365 + before / 4 - before / 100 + before / 400) % 7

/-- The month and the day that lie a number of days behind the first day of a list of months, the
first of which has the given number. -/
def monthAndDay : (month : Nat) → (lengths : List Nat) → (days : Nat) → Nat × Nat
  | month, [], days => (month, days + 1)
  | month, length :: rest, days =>
    if days < length then (month, days + 1) else monthAndDay (month + 1) rest (days - length)

def weeksIn (year : Nat) : Nat :=
  let first := firstWeekday year
  if first = 3 || (first = 2 && isLeap year) then 53 else 52

/-- How far the Monday of the first week lies behind the first day of a year. -/
def firstMonday (year : Nat) : Int :=
  let first : Int := firstWeekday year
  if 3 < first then 7 - first else -first

/-- The year, month and day of a day of a week, if the year has that week. The calendar begins with
the year one; a week of the year zero lies in no month. -/
def ofWeek? (year week day : Nat) : Option (Nat × Nat × Nat) :=
  if week < 1 || weeksIn year < week || day < 1 || 7 < day then none
  else if year = 0 then some (1, 0, 0)
  else
    let days := firstMonday year + ((week - 1) * 7 + day - 1 : Nat)
    if days < 0 then
      let before := year - 1
      some (before, monthAndDay 1 (monthLengths before) (days + yearLength before).toNat)
    else if yearLength year ≤ days.toNat then
      some (year + 1, monthAndDay 1 (monthLengths (year + 1)) (days.toNat - yearLength year))
    else some (year, monthAndDay 1 (monthLengths year) days.toNat)

end StateOwnership.DateTime
