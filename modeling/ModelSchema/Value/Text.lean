/-
The text of a configuration value, in two forms: plain, where a text
stands for itself and a day or a time is written by ISO 8601, and quoted,
which is also how the parts of a list or map are written. A quoted text is
between single quotes, or between double quotes if it has a single quote
in it and no double one; a quoted day or time names its kind and parts.
-/
import ModelSchema.Number.Shortest
import ModelSchema.Text.Printable
import ModelSchema.Text.Quoted
import ModelSchema.Value

namespace ModelSchema

namespace Value

-- =========================================================== quoted text

/-- How a character is written between quotes. -/
def quoteChar (quote c : Char) : List Char :=
  let n := c.toNat
  if c = quote ∨ c = '\\' then ['\\', c]
  else if c = '\n' then ['\\', 'n']
  else if c = '\r' then ['\\', 'r']
  else if c = '\t' then ['\\', 't']
  else if 0x20 ≤ n ∧ n < 0x7f then [c]
  else if 0x7f < n ∧ Text.isPrintable c then [c]
  else if n < 0x100 then '\\' :: 'x' :: Text.hexDigits 2 n
  else if n < 0x10000 then '\\' :: 'u' :: Text.hexDigits 4 n
  else '\\' :: 'U' :: Text.hexDigits 8 n

/-- A text between quotes. -/
def quote (s : String) : String :=
  let cs := s.toList
  let q := if cs.contains '\x27' && !cs.contains '"' then '"' else '\x27'
  String.ofList (q :: cs.flatMap (quoteChar q) ++ [q])

-- ======================================================== days and times

/-- Texts with a comma and a blank between them. -/
def commaList (texts : List String) : String := String.intercalate ", " texts

/-- Parts with their names, those of zero left out. -/
def namedParts (parts : List (String × Int)) : List String :=
  (parts.filter fun p => p.2 ≠ 0).map fun (name, n) => name ++ "=" ++ toString n

/-- A distance from universal time as a zone. -/
def quotedZone (offset : Int) : String :=
  if offset = 0 then "datetime.timezone.utc"
  else
    let seconds := offset / 1000000
    "datetime.timezone(datetime.timedelta("
      ++ commaList (namedParts [("days", seconds / 86400), ("seconds", seconds % 86400),
        ("microseconds", offset % 1000000)])
      ++ "))"

/-- The seconds and microseconds of a time as far as they are not zero. -/
def quotedSeconds (t : Calendar.Time) : List Nat :=
  if t.microsecond ≠ 0 then [t.second, t.microsecond]
  else if t.second ≠ 0 then [t.second]
  else []

/-- The parts of a time, and its zone. -/
def quotedClock (t : Calendar.Time) : List String :=
  ([t.hour, t.minute] ++ quotedSeconds t).map toString
    ++ (t.offset.map fun offset => "tzinfo=" ++ quotedZone offset).toList

/-- The parts of a day. -/
def quotedDay (d : Calendar.Date) : List String := [d.year, d.month, d.day].map toString

/-- A kind with its parts. -/
def quotedParts (kind : String) (parts : List String) : String :=
  "datetime." ++ kind ++ "(" ++ commaList parts ++ ")"

-- ====================================================== text of a value

mutual

/-- A value with texts between quotes. -/
def quotedText : Value → String
  | .null => "None"
  | .bool b => if b then "True" else "False"
  | .int n => toString n
  | .float x => x.text
  | .str s => quote s
  | .list items => "[" ++ commaList (quotedItems items) ++ "]"
  | .map entries => "\x7b" ++ commaList (quotedEntries entries) ++ "\x7d"
  | .record _ fields => "\x7b" ++ commaList (quotedEntries fields) ++ "\x7d"
  | .callable name => name
  | .date d => quotedParts "date" (quotedDay d)
  | .time t => quotedParts "time" (quotedClock t)
  | .datetime d t => quotedParts "datetime" (quotedDay d ++ quotedClock t)

/-- `quotedText`, item by item. -/
def quotedItems : List Value → List String
  | [] => []
  | v :: rest => v.quotedText :: quotedItems rest

/-- Keys and values with a colon and a blank between them. -/
def quotedEntries : List (String × Value) → List String
  | [] => []
  | (k, v) :: rest => (quote k ++ ": " ++ v.quotedText) :: quotedEntries rest

end

/-- A value in plain form: a text is itself, a day or a time is written by
ISO 8601, anything else as when it is quoted. -/
def text : Value → String
  | .str s => s
  | .date d => d.text
  | .time t => t.text
  | .datetime d t => d.text ++ " " ++ t.text
  | v => v.quotedText

@[simp] theorem text_str (s : String) : (Value.str s).text = s := rfl

end Value

end ModelSchema
