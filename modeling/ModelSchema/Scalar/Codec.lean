/-
The codecs of the scalars: how a value is written for a client, and how a
client's value is read.
-/
import ModelSchema.Calendar.Moment
import ModelSchema.Calendar.Reading
import ModelSchema.Fault
import ModelSchema.Number.Integer
import ModelSchema.Scalar.Table

namespace ModelSchema.Scalar

-- ======================================================== long integers

/-- A text as a long integer. -/
def longOfText (s : String) : Except Fault Int :=
  match Integer.read s.toList with
  | .ok n => .ok n
  | .error .malformed => .error (.badInteger s)
  | .error (.tooLong digits) => .error (.longInteger digits)

/-- A number without its fraction as a long integer. -/
def longOfDouble (x : Double) : Except Fault Int :=
  match x.truncate?, x.meaning with
  | some n, _ => .ok n
  | none, .undefined => .error .undefinedInteger
  | none, _ => .error .infiniteInteger

/-- A value as a long integer, whatever its size. A truth value is
none. -/
def toLong : Value → Except Fault Int
  | .bool b => .error (.booleanLong b)
  | .int n => .ok n
  | .float x => longOfDouble x
  | .str s => longOfText s
  | _ => .error .wrongKind

-- ======================================================= dates and times

/-- A day, a time or a moment as text. -/
def toIsoText : Value → Except Fault Value
  | .date d => .ok (.str d.text)
  | .time t => .ok (.str t.text)
  | .datetime d t => .ok (.str (d.text ++ "T" ++ t.text))
  | .record _ fields =>
      match Assoc.get? fields "isoformat" with
      | some (.callable name) => .ok (.str name)
      | some _ => .error .wrongKind
      | none => .error .noSuchMember
  | _ => .error .noSuchMember

/-- Reads a text as a day or a time. -/
def ofText (read? : String → Option Value) : Value → Except Fault Value
  | .str s =>
      match read? s with
      | some v => .ok v
      | none => .error .badTemporal
  | _ => .error .wrongKind

/-- Reads a text as a moment. -/
def momentOfText (s : String) : Except Fault Value :=
  match Calendar.Moment.read s with
  | .ok (d, t) => .ok (.datetime d t)
  | .error .malformed => .error .badTemporal
  | .error .outOfRange => .error .dateOutOfRange

/-- Reads a moment. An object that can be read is asked for its text. A
list or map of fewer than four items is too short before it is of the
wrong kind. -/
def toMoment : Value → Except Fault Value
  | .str s => momentOfText s
  | .record _ fields =>
      match Assoc.get? fields "read" with
      | some (.callable name) => momentOfText name
      | _ => .error .wrongKind
  | .list items => .error (if items.length < 4 then .badTemporal else .wrongKind)
  | .map entries => .error (if entries.length < 4 then .badTemporal else .wrongKind)
  | _ => .error .wrongKind

-- =============================================================== codecs

/-- A value as it is written for a client. -/
def serialize : Scalar → Value → Except Fault Value
  | .json, v | .upload, v => .ok v
  | .long, v => (toLong v).map .int
  | .dateTime, v | .time, v | .date, v => toIsoText v

/-- The value that a client has written. -/
def parseValue : Scalar → Value → Except Fault Value
  | .json, v | .upload, v => .ok v
  | .long, v => (toLong v).map .int
  | .dateTime, v => toMoment v
  | .time, v => ofText (fun s => (Calendar.Time.read? s).map .time) v
  | .date, v => ofText (fun s => (Calendar.Date.read? s).map .date) v

end ModelSchema.Scalar
