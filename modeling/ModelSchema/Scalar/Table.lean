/-
The scalars that every generated schema declares, in the order of their
declaration.
-/
namespace ModelSchema

/-- A scalar beyond those that GraphQL has itself. -/
inductive Scalar where
  | json | dateTime | time | date | long | upload
deriving DecidableEq

namespace Scalar

/-- All scalars, in order. -/
def all : List Scalar := [.json, .dateTime, .time, .date, .long, .upload]

/-- The name of a scalar. -/
def name : Scalar → String
  | .json => "JSON"
  | .dateTime => "DateTime"
  | .time => "Time"
  | .date => "Date"
  | .long => "Long"
  | .upload => "Upload"

/-- The scalar of a name. -/
def ofName? (name : String) : Option Scalar := all.find? fun s => s.name = name

/-- What a scalar says of itself. -/
def description? : Scalar → Option String
  | .json =>
      some ("The `JSON` scalar type represents JSON values as specified by [ECMA-404]"
        ++ "(https://ecma-international.org/wp-content/uploads/"
        ++ "ECMA-404_2nd_edition_december_2017.pdf).")
  | .dateTime => some "Date with time (isoformat)"
  | .time => some "Time (isoformat)"
  | .date => some "Date (isoformat)"
  | .long => some "64-bit signed integer"
  | .upload => none

/-- The declarations of all scalars. -/
def declarations : String :=
  String.intercalate "\n" (all.map fun s => "scalar " ++ s.name)

end Scalar

end ModelSchema
