/-
The types of columns, and the attribute types that they become. A type is
told by the classes that it is an instance of. Some of these are kinds of
others, as an enumeration is a string and a large integer an integer, so
they are tried in an order.
-/
import ModelSchema.Value

namespace ModelSchema.Relational

/-- The classes that the types of columns are told by. -/
inductive TypeClass where
  | enumeration | boolean | bigInteger | integer | float | numeric | json | dateTime | date | time
  | string
deriving DecidableEq

/-- A class of values with names: its own name, and the members with their
values. -/
structure EnumClass where
  name : String
  members : List (String × Value)

/-- The names of members, given the values that have been named already.
A member with a value that has been named is another name for it. -/
def memberNamesAfter (seen : List Value) : List (String × Value) → List String
  | [] => []
  | (name, v) :: rest =>
      if seen.any v.agrees then memberNamesAfter seen rest
      else name :: memberNamesAfter (v :: seen) rest

/-- The names of the members of a class. -/
def EnumClass.memberNames (e : EnumClass) : List String := memberNamesAfter [] e.members

/-- A type that decorates no other one: which of the classes it is an
instance of, the class of its values if they are members of one, and its
values if it lists them. -/
structure PlainType where
  classes : List TypeClass
  enumClass : Option EnumClass := none
  enums : List Value := []
deriving Inhabited

/-- A type of a column, perhaps one that decorates another. -/
inductive ColumnType where
  | plain (type : PlainType)
  | decorated (inner : ColumnType)
deriving Inhabited

/-- The attribute types of the classes, in the order in which the classes
are tried. -/
def attributeTypes : List (TypeClass × String) :=
  [(.enumeration, "enumeration"), (.boolean, "boolean"), (.bigInteger, "biginteger"),
    (.integer, "integer"), (.float, "float"), (.numeric, "decimal"), (.json, "json"),
    (.dateTime, "datetime"), (.date, "date"), (.time, "time"), (.string, "string")]

/-- The attribute type of a type: that of the first class that it is an
instance of. One that is an instance of none becomes a string. -/
def PlainType.attributeType (t : PlainType) : String :=
  match attributeTypes.find? fun (c, _) => t.classes.contains c with
  | some (_, type) => type
  | none => "string"

namespace ColumnType

/-- The type under all decorations, which is asked in their place. -/
def core : ColumnType → PlainType
  | .plain type => type
  | .decorated inner => inner.core

/-- The attribute type of a column type. -/
def attributeType (t : ColumnType) : String := t.core.attributeType

/-- The class of an enumeration, if its values are members of one. -/
def enumClass? (t : ColumnType) : Option EnumClass := t.core.enumClass

/-- The values of an enumeration, which are the names of its members if it
has members. -/
def enumValues (t : ColumnType) : List Value :=
  match t.enumClass? with
  | some e => e.memberNames.map .str
  | none => t.core.enums

end ColumnType

end ModelSchema.Relational
