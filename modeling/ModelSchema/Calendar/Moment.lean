/-
Reading moments: a day and perhaps a time of it, both by ISO 8601. Every
field has a fixed number of digits, and the fields are only held against
the calendar when all of them are read.
-/
import ModelSchema.Calendar.Reading

namespace ModelSchema.Calendar

/-- Why a text is no moment. -/
inductive MomentRefusal where
  | malformed
  | outOfRange
deriving DecidableEq

namespace Moment

/-- The places after a dash, and whether there was one. -/
def splitDash : List Char → Bool × List Char
  | '-' :: cs => (true, cs)
  | cs => (false, cs)

-- ================================================================= days

/-- The numbers of a day as they are written. -/
structure Day where
  year : Nat
  month : Nat := 1
  day : Nat := 1

/-- The numbers of a day of the calendar. -/
def Day.ofDate (d : Date) : Day := ⟨d.year, d.month, d.day⟩

/-- Reads `YYYY`, `YYYY-MM`, `YYYY-MM-DD` or `YYYYMMDD`. -/
def readDay (cs : List Char) : Option (Day × List Char) := do
  let (year, cs) ← digits? 4 cs
  if cs.isEmpty then return ({ year := year }, [])
  let (dashed, cs) := splitDash cs
  let (month, cs) ← digits? 2 cs
  if cs.isEmpty then
    if dashed then return ({ year := year, month := month }, []) else none
  let (day, cs) ← digits? 2 (← if dashed then after? '-' cs else some cs)
  return (⟨year, month, day⟩, cs)

/-- The day of a week, counted from the week with the fourth of January in
it. A year of fifty-two weeks has its fifty-third in the next one. -/
def ofWeek (year week weekday : Nat) : Except MomentRefusal Date :=
  if week < 1 ∨ 53 < week ∨ weekday < 1 ∨ 7 < weekday ∨ year < 1 ∨ 9999 < year then
    .error .malformed
  else
    let n := firstWeekMonday year + ((week - 1) * 7 + (weekday - 1) : Nat)
    match ofOrdinal? n.toNat with
    | some d => .ok d
    | none => .error .outOfRange

/-- The day of a year with a number. -/
def ofDayOfYear (year n : Nat) : Option Date :=
  if year < 1 ∨ 9999 < year then none
  else if n < 1 ∨ (if isLeapYear year then 366 else 365) < n then none
  else ofOrdinal? (daysBeforeYear year + n)

/-- The value of an option; none is malformed. -/
def orMalformed {α : Type} : Option α → Except MomentRefusal α
  | some v => .ok v
  | none => .error .malformed

/-- Reads the day of a week after `W`; without one it is the first. -/
def readWeekday (dashed : Bool) (cs : List Char) : Option (Nat × List Char) :=
  if cs.isEmpty then some (1, [])
  else
    let (dashedAgain, cs) := splitDash cs
    if dashed = dashedAgain then digits? 1 cs else none

/-- Reads `YYYY-Www`, `YYYY-Www-D` or `YYYY-DDD`, each also without
dashes. -/
def readOtherDay (cs : List Char) : Except MomentRefusal (Day × List Char) := do
  let (year, cs) ← orMalformed (digits? 4 cs)
  match splitDash cs with
  | (dashed, 'W' :: cs) =>
      let (week, cs) ← orMalformed (digits? 2 cs)
      let (weekday, cs) ← orMalformed (readWeekday dashed cs)
      return (.ofDate (← ofWeek year week weekday), cs)
  | (_, cs) =>
      let (n, cs) ← orMalformed (digits? 3 cs)
      return (.ofDate (← orMalformed (ofDayOfYear year n)), cs)

-- ========================================================= times of day

/-- Whether a distance from universal time starts at a character. -/
def startsZone (c : Char) : Bool := c = '+' || c = '-' || c = 'Z' || c = 'z'

/-- Whether a time ends here or goes on with a zone. -/
def isDone (cs : List Char) : Bool := cs.head?.all startsZone

/-- Reads up to `n` more fields of a time. A colon after the first field
makes colons necessary. -/
def readClock (colons : Bool) (fields : List Nat) :
    Nat → List Char → Option (List Nat × List Char)
  | 0, cs => some (fields, cs)
  | n + 1, cs =>
      if isDone cs then some (fields, cs)
      else do
        let colon := cs.head? = some ':'
        let colons := if fields.length = 1 then colon else colons
        let cs ←
          if fields.isEmpty || !colons then some cs
          else if colon then some (cs.drop 1)
          else none
        let (v, cs) ← digits? 2 cs
        readClock colons (fields ++ [v]) n cs

/-- The digits at the front of a text. -/
def leadingDigits (cs : List Char) : List Char := cs.takeWhile fun c => (plainDigit? c).isSome

/-- Reads a fraction of a second, if there is one, in microseconds. -/
def readFraction (cs : List Char) : Nat × List Char :=
  match cs with
  | c :: next =>
      let ds := leadingDigits next
      if (c = '.' || c = ',') && !ds.isEmpty then
        let kept := ds.take 6
        let n := ((digits? kept.length kept).map Prod.fst).getD 0
        (n * pow10 (6 - kept.length), next.drop ds.length)
      else (0, cs)
  | [] => (0, [])

/-- Reads the minutes of a distance from universal time, up to the end. -/
def readZoneMinutes : List Char → Option Nat
  | [] => some 0
  | cs =>
      match digits? 2 ((after? ':' cs).getD cs) with
      | some (minutes, []) => some minutes
      | _ => none

/-- Reads a distance from universal time, in seconds: `Z`, `+HH`, `+HHMM`
or `+HH:MM`. -/
def readZone (cs : List Char) : Option Int :=
  match cs with
  | ['Z'] | ['z'] => some 0
  | sign :: rest => do
      if !(sign = '+' || sign = '-') then none
      let (hours, rest) ← digits? 2 rest
      let minutes ← readZoneMinutes rest
      if 59 < minutes ∨ 23 < hours then none
      else
        let seconds : Int := ((hours * 60 + minutes) * 60 : Nat)
        some (if sign = '-' then -seconds else seconds)
  | [] => none

/-- The numbers of a time as they are written, with the distance from
universal time in microseconds. -/
structure Clock where
  hour : Nat := 0
  minute : Nat := 0
  second : Nat := 0
  microsecond : Nat := 0
  offset : Option Int := none

/-- Whether a time is the end of its day, written as hour twenty-four. -/
def Clock.isEndOfDay (t : Clock) : Bool := t.hour = 24

/-- Reads a time of at least two places. Hour twenty-four has nothing
after it. -/
def readTime (cs : List Char) : Option Clock := do
  if cs.length < 2 then none
  let (fields, cs) ← readClock false [] 3 cs
  let (microsecond, cs) := if fields.length = 3 then readFraction cs else (0, cs)
  if !isDone cs then none
  let offset ← if cs.isEmpty then some none else (readZone cs).map some
  let t : Clock :=
    { hour := fields.getD 0 0
      minute := fields.getD 1 0
      second := fields.getD 2 0
      microsecond := microsecond
      offset := offset.map (· * 1000000) }
  if t.isEndOfDay && (t.minute ≠ 0 || t.second ≠ 0 || t.microsecond ≠ 0) then none else t

-- ============================================================== moments

/-- The date of written numbers. -/
def Day.date? (d : Day) : Option Date := Calendar.date? d.year d.month d.day

/-- The time of written numbers. -/
def Clock.time? (t : Clock) : Option Time :=
  Calendar.time? t.hour t.minute t.second t.microsecond t.offset

/-- The moment of written numbers; the end of a day is the start of the
next. -/
def ofParts (d : Day) (t : Clock) : Except MomentRefusal (Date × Time) := do
  let date ← orMalformed d.date?
  if t.isEndOfDay then
    let time ← orMalformed { t with hour := 0 }.time?
    match date.next? with
    | some next => return (next, time)
    | none => throw .outOfRange
  else return (date, ← orMalformed t.time?)

/-- Reads a moment. Any character may stand between the day and its
time. -/
def read (s : String) : Except MomentRefusal (Date × Time) := do
  let cs := s.toList
  if !cs.all fun c => c.toNat < 128 then throw .malformed
  let (day, cs) ←
    match readDay cs with
    | some r => .ok r
    | none => readOtherDay cs
  if cs.isEmpty then ofParts day {}
  else ofParts day (← orMalformed (readTime (cs.drop 1)))

end Moment

end ModelSchema.Calendar
