/-
Reading days and times of day. A text is read place by place, where a
character that takes several bytes takes as many places. A date is only
read as far as it needs to be; a time has to end where it ends.
-/
import ModelSchema.Calendar
import ModelSchema.Number.Power

namespace ModelSchema.Calendar

-- =============================================================== places

/-- The places of a text. -/
def places (s : String) : List Char :=
  s.toList.flatMap fun c => List.replicate c.utf8Size c

/-- The value of one of the ten plain digits. -/
def plainDigit? (c : Char) : Option Nat :=
  if '0' ≤ c ∧ c ≤ '9' then some (c.toNat - '0'.toNat) else none

/-- Reads `n` digits as a number after one that is read already. -/
def digitsAfter (value : Nat) : Nat → List Char → Option (Nat × List Char)
  | 0, cs => some (value, cs)
  | n + 1, c :: cs => do digitsAfter (value * 10 + (← plainDigit? c)) n cs
  | _ + 1, [] => none

/-- Reads `n` digits as a number. -/
def digits? (n : Nat) (cs : List Char) : Option (Nat × List Char) := digitsAfter 0 n cs

/-- What follows a separator. -/
def after? (separator : Char) : List Char → Option (List Char)
  | c :: cs => if c = separator then some cs else none
  | [] => none

-- ================================================================= days

/-- Reads a week and perhaps its day after `W`. -/
def readWeek (year : Nat) (dashed : Bool) (cs : List Char) : Option Date := do
  let (week, cs) ← digits? 2 cs
  if cs.isEmpty then ofWeek? year week 1
  else
    let (weekday, _) ← digits? 1 (← if dashed then after? '-' cs else some cs)
    ofWeek? year week weekday

/-- Reads a month and its day. -/
def readMonthDay (year : Nat) (dashed : Bool) (cs : List Char) : Option Date := do
  let (month, cs) ← digits? 2 cs
  let (day, _) ← digits? 2 (← if dashed then after? '-' cs else some cs)
  date? year month day

/-- Reads a day: `YYYY-MM-DD`, `YYYY-Www-D`, either of them without dashes,
or a week without its day. The text takes seven, eight or ten places, and
those that are not needed may hold anything. -/
def Date.read? (s : String) : Option Date := do
  let cs := places s
  if [7, 8, 10].contains cs.length = false then none
  else
    let (year, cs) ← digits? 4 cs
    let dashed := cs.head? = some '-'
    let cs := if dashed then cs.drop 1 else cs
    match cs with
    | 'W' :: cs => readWeek year dashed cs
    | cs => readMonthDay year dashed cs

-- ========================================================= times of day

/-- A time as it is written: its hours, minutes and seconds as far as they
are given, its microseconds, and whether anything is left after it. -/
structure Clock where
  fields : List Nat := []
  microsecond : Nat := 0
  left : Bool := false

namespace Clock

/-- The hours. -/
def hour (t : Clock) : Nat := t.fields.getD 0 0

/-- The minutes. -/
def minute (t : Clock) : Nat := t.fields.getD 1 0

/-- The seconds. -/
def second (t : Clock) : Nat := t.fields.getD 2 0

end Clock

/-- Whether places hold something: they do not if they are at an end,
which a null character is too. -/
def holdsMore (cs : List Char) : Bool := !(cs.isEmpty || cs.head? = some '\x00')

/-- Reads a fraction of a second, down to microseconds; further digits are
passed over. -/
def readFraction (cs : List Char) : Option Clock := do
  let width := min 6 cs.length
  let (n, cs) ← digits? width cs
  return {
    microsecond := n * pow10 (6 - width)
    left := holdsMore (cs.dropWhile fun c => (plainDigit? c).isSome) }

/-- Reads up to `n` more fields of a time. Whether colons stand between
them is seen after the first one. A last character that fits nothing is
told as left. -/
def readFields (colons : Option Bool) : Nat → List Char → Option Clock
  | 0, cs => readFraction cs
  | n + 1, cs => do
      let (v, cs) ← digits? 2 cs
      match cs with
      | [] | [_] => return { fields := [v], left := holdsMore cs }
      | c :: next =>
          let colons := colons.getD (c = ':')
          let rest ←
            if colons && c = ':' then readFields (some colons) n next
            else if c = '.' || c = ',' then readFraction next
            else if colons then none
            else readFields (some colons) n (c :: next)
          return { rest with fields := v :: rest.fields }

/-- Reads hours, minutes, seconds and a fraction. -/
def readClock (cs : List Char) : Option Clock := readFields none 3 cs

/-- Whether a distance from universal time starts with a character. -/
def startsOffset (c : Char) : Bool := c = '+' || c = '-' || c = 'Z'

/-- Reads a distance from universal time, which is less than a day. One
of less than a second is none. -/
def readOffset : List Char → Option Int
  | 'Z' :: rest => if holdsMore rest then none else some 0
  | sign :: rest => do
      let t ← readClock rest
      let seconds := t.hour * 3600 + t.minute * 60 + t.second
      let n := seconds * 1000000 + t.microsecond
      if t.left then none
      else if seconds = 0 then some 0
      else if n < 86400 * 1000000 then some (if sign = '-' then -(n : Int) else n)
      else none
  | [] => none

/-- Reads a time of day, perhaps with a `T` before it and a distance from
universal time after it. -/
def Time.read? (s : String) : Option Time := do
  let cs := match places s with
    | 'T' :: cs => cs
    | cs => cs
  let (written, zone) := cs.span fun c => !startsOffset c
  let t ← readClock written
  let offset ←
    if zone.isEmpty then (if t.left then none else some none)
    else (readOffset zone).map some
  time? t.hour t.minute t.second t.microsecond offset

end ModelSchema.Calendar
