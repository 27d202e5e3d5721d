/-
Days of the Gregorian calendar and times of day, with their text by
ISO 8601. A time may know its distance from universal time, which is
held in microseconds.
-/
namespace ModelSchema

namespace Calendar

/-- A day. -/
structure Date where
  year : Nat
  month : Nat
  day : Nat
deriving DecidableEq, Inhabited

/-- A time of day, with the distance from universal time if it is
known. -/
structure Time where
  hour : Nat
  minute : Nat
  second : Nat
  microsecond : Nat
  offset : Option Int
deriving DecidableEq, Inhabited

-- ========================================================= validity

/-- Every fourth year, but not the hundredth unless the four hundredth. -/
def isLeapYear (year : Nat) : Bool :=
  year % 4 == 0 && (year % 100 != 0 || year % 400 == 0)

/-- The length of a month. -/
def daysInMonth (year month : Nat) : Nat :=
  if month = 2 then (if isLeapYear year then 29 else 28)
  else if month = 4 ∨ month = 6 ∨ month = 9 ∨ month = 11 then 30
  else 31

/-- The date of a year from 1 to 9999, if the month has the day. -/
def date? (year month day : Nat) : Option Date :=
  if 1 ≤ year ∧ year ≤ 9999 ∧ 1 ≤ month ∧ month ≤ 12 ∧ 1 ≤ day
      ∧ day ≤ daysInMonth year month then
    some ⟨year, month, day⟩
  else none

/-- The time of these parts, if each is in its range. -/
def time? (hour minute second microsecond : Nat) (offset : Option Int) :
    Option Time :=
  if hour < 24 ∧ minute < 60 ∧ second < 60 ∧ microsecond < 1000000 then
    some ⟨hour, minute, second, microsecond, offset⟩
  else none

-- ===================================================== counting days

/-- The days before the first of January of a year, counted from the
first of January of year 1. -/
def daysBeforeYear (year : Nat) : Nat :=
  let y := year - 1
  y * 365 + y / 4 - y / 100 + y / 400

/-- The days of a year before the first of a month. -/
def daysBeforeMonth (year : Nat) : (month : Nat) → Nat
  | 0 | 1 => 0
  | month + 2 => daysBeforeMonth year (month + 1) + daysInMonth year (month + 1)

/-- The number of a day, where the first of January of year 1 is 1. -/
def Date.ordinal (d : Date) : Nat :=
  daysBeforeYear d.year + daysBeforeMonth d.year d.month + d.day

/-- The day `extra` days into a month, walking over whole months. -/
def walkMonths : (fuel year month extra : Nat) → Date
  | 0, year, month, extra => ⟨year, month, extra + 1⟩
  | fuel + 1, year, month, extra =>
      if extra < daysInMonth year month then ⟨year, month, extra + 1⟩
      else if month = 12 then
        walkMonths fuel (year + 1) 1 (extra - daysInMonth year month)
      else walkMonths fuel year (month + 1) (extra - daysInMonth year month)

/-- The day with a number, if it is in a year from 1 to 9999. -/
def ofOrdinal? (n : Nat) : Option Date :=
  if n = 0 ∨ daysBeforeYear 10000 < n then none
  else
    let guess := max 1 (n * 400 / 146097)
    let year := if daysBeforeYear guess < n then guess else guess - 1
    some (walkMonths 24 year 1 (n - 1 - daysBeforeYear year))

/-- The day after a date, if it is still in year 9999. -/
def Date.next? (d : Date) : Option Date := ofOrdinal? (d.ordinal + 1)

/-- The Monday of the first week of a year: the week with the year's
first Thursday in it. It may be a day of the year before, and is given
by its number, which for year 1 is 1. -/
def firstWeekMonday (year : Nat) : Int :=
  let first : Int := daysBeforeYear year + 1
  let weekday := (first + 6) % 7
  let monday := first - weekday
  if 3 < weekday then monday + 7 else monday

/-- The day of a week date, if the year has the week. -/
def ofWeek? (year week weekday : Nat) : Option Date :=
  if year < 1 ∨ 9999 < year ∨ weekday < 1 ∨ 7 < weekday ∨ week < 1 ∨ 53 < week then
    none
  else if week = 53 ∧ firstWeekMonday (year + 1) ≤ firstWeekMonday year + 52 * 7 then
    none
  else
    let n := firstWeekMonday year + ((week - 1) * 7 + (weekday - 1) : Nat)
    if n < 1 then none else ofOrdinal? n.toNat

-- ============================================================== text

/-- A number with zeros in front up to a width. -/
def padded (width n : Nat) : String :=
  let ds := Nat.toDigits 10 n
  String.ofList (List.replicate (width - ds.length) '0' ++ ds)

/-- A date as `YYYY-MM-DD`. -/
def Date.text (d : Date) : String :=
  padded 4 d.year ++ "-" ++ padded 2 d.month ++ "-" ++ padded 2 d.day

/-- A distance from universal time as `+HH:MM`, with seconds and
microseconds only where they are not zero. -/
def offsetText (offset : Int) : String :=
  let n := offset.natAbs
  let seconds := n / 1000000
  let rest := n % 1000000
  (if offset < 0 then "-" else "+")
    ++ padded 2 (seconds / 3600) ++ ":" ++ padded 2 (seconds / 60 % 60)
    ++ (if seconds % 60 = 0 ∧ rest = 0 then "" else ":" ++ padded 2 (seconds % 60))
    ++ (if rest = 0 then "" else "." ++ padded 6 rest)

/-- A time as `HH:MM:SS`, with microseconds only where they are not
zero, and the distance from universal time if it is known. -/
def Time.text (t : Time) : String :=
  padded 2 t.hour ++ ":" ++ padded 2 t.minute ++ ":" ++ padded 2 t.second
    ++ (if t.microsecond = 0 then "" else "." ++ padded 6 t.microsecond)
    ++ (match t.offset with
        | none => ""
        | some offset => offsetText offset)

end Calendar

end ModelSchema
