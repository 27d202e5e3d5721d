/-
The scalars that GraphQL has itself: how a value is written for a client,
and how a client's value or literal is read. Writing makes the most of
what it gets, reading takes only what is of the scalar's own kind.
-/
import ModelSchema.Fault
import ModelSchema.Graphql.Document
import ModelSchema.Number.Decimal

namespace ModelSchema

open Graphql (Literal)

/-- A scalar of GraphQL's own. -/
inductive StandardScalar where
  | int | float | string | boolean | id
deriving DecidableEq

namespace StandardScalar

/-- All of them. -/
def all : List StandardScalar := [.int, .float, .string, .boolean, .id]

/-- The name of a scalar. -/
def name : StandardScalar → String
  | .int => "Int"
  | .float => "Float"
  | .string => "String"
  | .boolean => "Boolean"
  | .id => "ID"

/-- The scalar of a name. -/
def ofName? (name : String) : Option StandardScalar := all.find? fun s => s.name = name

-- ============================================================== numbers

/-- Whether a whole number is one of 32 bits with a sign. -/
def isShort (n : Int) : Bool := -(pow2 31 : Int) ≤ n && n < (pow2 31 : Int)

/-- A whole number of 32 bits. -/
def short (n : Int) : Except Fault Value :=
  if isShort n then .ok (.int n) else .error .badScalar

/-- The whole number that a number is, if it has no fraction. -/
def whole? : Value → Option Int
  | .int n => some n
  | .float x => x.toInt?
  | _ => none

/-- The finite number that a whole number is nearest to. -/
def floatOfInt (n : Int) : Except Fault Value :=
  let x := Double.ofRatio (n < 0) n.natAbs 1
  if x.isFinite then .ok (.float x) else .error .hugeInteger

/-- A number that has to be finite. -/
def finite (x : Option Double) : Except Fault Value :=
  match x.filter Double.isFinite with
  | some x => .ok (.float x)
  | none => .error .badScalar

-- ============================================================== writing

/-- The whole number that is written for a value. -/
def serializeInt : Value → Except Fault Value
  | .bool b => .ok (.int (if b then 1 else 0))
  | .str s =>
      match Integer.read? s.toList with
      | some n => short n
      | none => .error .badScalar
  | v =>
      match whole? v with
      | some n => short n
      | none => .error .badScalar

/-- The number that is written for a value. A truth value counts as a
whole one. -/
def serializeFloat : Value → Except Fault Value
  | .bool b => .ok (.int (if b then 1 else 0))
  | .int n => floatOfInt n
  | .float x => finite x
  | .str s => finite (Decimal.read? s.toList)
  | _ => .error .badScalar

/-- The text that is written for a value with a form of its own: a day, a
time, a moment or an object. -/
def serializeOther : Value → Except Fault Value
  | .date d => .ok (.str (Value.date d).text)
  | .time t => .ok (.str (Value.time t).text)
  | .datetime d t => .ok (.str (Value.datetime d t).text)
  | .record identity fields => .ok (.str (Value.record identity fields).text)
  | _ => .error .badScalar

/-- The text that is written for a value. -/
def serializeString : Value → Except Fault Value
  | .str s => .ok (.str s)
  | .bool b => .ok (.str (if b then "true" else "false"))
  | .int n => .ok (.str (Value.int n).text)
  | .float x => if x.isFinite then .ok (.str x.text) else .error .badScalar
  | v => serializeOther v

/-- The truth value that is written for a value. -/
def serializeBoolean : Value → Except Fault Value
  | .bool b => .ok (.bool b)
  | .int n => .ok (.bool (n != 0))
  | .float x => if x.isFinite then .ok (.bool !x.isZero) else .error .badScalar
  | _ => .error .badScalar

/-- The identifier that is written for a value. -/
def serializeId : Value → Except Fault Value
  | .str s => .ok (.str s)
  | v =>
      match whole? v with
      | some n => .ok (.str (Value.int n).text)
      | none => serializeOther v

/-- A value as it is written for a client. -/
def serialize : StandardScalar → Value → Except Fault Value
  | .int => serializeInt
  | .float => serializeFloat
  | .string => serializeString
  | .boolean => serializeBoolean
  | .id => serializeId

-- ============================================================== reading

/-- The value that a client has written. -/
def parseValue : StandardScalar → Value → Except Fault Value
  | .int, v =>
      match whole? v with
      | some n => short n
      | none => .error .badScalar
  | .float, .int n => floatOfInt n
  | .float, .float x => finite x
  | .string, .str s | .id, .str s => .ok (.str s)
  | .boolean, .bool b => .ok (.bool b)
  | .id, v =>
      match whole? v with
      | some n => .ok (.str (Value.int n).text)
      | none => .error .badScalar
  | _, _ => .error .badScalar

/-- The number that the text of a literal stands for, which may be
infinite. -/
def floatOfLiteral (text : String) : Except Fault Value :=
  match Decimal.read? text.toList with
  | some x => .ok (.float x)
  | none => .error .badScalar

/-- The whole number that the text of a literal stands for. -/
def intOfLiteral (text : String) : Except Fault Value :=
  match Integer.read text.toList with
  | .ok n => short n
  | .error (.tooLong digits) => .error (.longInteger digits)
  | .error .malformed => .error .badScalar

/-- The value of a literal. -/
def parseLiteral : StandardScalar → Literal → Except Fault Value
  | .int, .int text => intOfLiteral text
  | .float, .int text | .float, .float text => floatOfLiteral text
  | .string, .string s | .id, .string s => .ok (.str s)
  | .boolean, .bool b => .ok (.bool b)
  | .id, .int text => .ok (.str text)
  | _, _ => .error .badScalar

/-- Whether a literal has a value of a scalar. -/
def accepts : StandardScalar → Literal → Bool
  | s, v => (s.parseLiteral v).toBool

end StandardScalar

end ModelSchema
