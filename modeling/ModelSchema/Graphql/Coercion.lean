/-
What a literal stands for as a value of a type. It may stand for nothing,
as a text does for a number; what counts here is only whether it stands
for something, and whether that is null.

The fields of input types are found out on the way, each type once, since
a default of one may be a literal of another. A literal is therefore read
from left to right, and no further than it has to be.
-/
import ModelSchema.Graphql.Schema
import ModelSchema.Scalar.Standard

namespace ModelSchema.Graphql

/-- What a literal stands for. -/
inductive Coerced where
  | nothing | null | value
deriving DecidableEq

/-- What a named type makes of literals. Types of fields alone make nothing
of any. -/
inductive InputKind where
  | standard (s : StandardScalar)
  | scalar
  | enum (values : List String)
  | input (oneOf : Bool)
  | output

/-- A field of an input type with what its default stands for. -/
structure InputField extends SchemaField where
  default : Coerced

/-- Work that may need the fields of input types, and keeps those that it
has found out. -/
abbrev FieldWork := StateT (List (String × List InputField)) (Except Fault)

/-- What is known of the types that literals are read as: their kinds, and
how to find out their fields. -/
structure InputTypes where
  kind : String → InputKind
  fields : String → FieldWork (List InputField)

/-- A literal that waits for its type. -/
abbrev Reader := TypeExpr → FieldWork Coerced

namespace Coerced

/-- What a list of one item stands for. -/
def asList : Coerced → Coerced
  | .nothing => .nothing
  | _ => .value

/-- What an object of some fields stands for, given what those stand for;
a type of which one field is given is to have that one, and not null. -/
def ofFields (oneOf : Bool) : Option (List Coerced) → Coerced
  | none => .nothing
  | some fields => if oneOf && fields != [.value] then .nothing else .value

end Coerced

-- ========================================================== named types

variable (types : InputTypes)

/-- A literal as a value of a named type without fields. -/
def leafAt (v : Literal) (name : String) : FieldWork Coerced :=
  match types.kind name with
  | .standard s => return if s.accepts v then .value else .nothing
  | .scalar => return .value
  | .enum values =>
      return match v with
        | .enum word => if values.contains word then .value else .nothing
        | _ => .nothing
  | .input _ => return .nothing
  | .output => throw .invalidSchema

/-- Fields as an object gives them, those that it leaves out by their
defaults. Nothing if one of them stands for nothing, or is needed and left
out. -/
def fillFields (given : List (String × Reader)) :
    List InputField → FieldWork (Option (List Coerced))
  | [] => return some []
  | field :: rest => do
      match given.lookup field.name with
      | some read =>
          let v ← read field.type
          if v = .nothing then return none
          return (← fillFields given rest).map (v :: ·)
      | none =>
          if field.default = .nothing then
            if field.type.isNonNull then return none
            fillFields given rest
          else return (← fillFields given rest).map (field.default :: ·)

/-- An object as a value of a named type. -/
def objectAt (given : List (String × Reader)) (v : Literal) (name : String) :
    FieldWork Coerced := do
  match types.kind name with
  | .input oneOf => return .ofFields oneOf (← fillFields given (← types.fields name))
  | _ => leafAt types v name

-- =========================================================== references

/-- A literal that is neither null nor a list. Where a list is asked for it
is one of one item. -/
def itemAt (named : String → FieldWork Coerced) : Reader
  | .named name => named name
  | .list item => Coerced.asList <$> itemAt named item
  | .nonNull inner => itemAt named inner

/-- Items of a list, up to the first that stands for nothing. -/
def itemsAt (item : TypeExpr) : List Reader → FieldWork Coerced
  | [] => return .value
  | read :: rest => do
      if (← read item) = .nothing then return .nothing
      itemsAt item rest

/-- A list. -/
def listAt (items : List Reader) (named : String → FieldWork Coerced) : Reader
  | .named name => named name
  | .list item => itemsAt item items
  | .nonNull inner => listAt items named inner

/-- Null, which stands for itself unless it is excluded. -/
def nullAt (t : TypeExpr) : Coerced := if t.isNonNull then .nothing else .null

mutual

/-- A literal as a value of a type. -/
def Literal.coerce : Literal → Reader
  | .null => fun t => return nullAt t
  | .list items => listAt (coerceItems items) (leafAt types (.list items))
  | .object fields => itemAt (objectAt types (coerceFields fields) (.object fields))
  | v => itemAt (leafAt types v)

/-- Items that wait for their type. -/
def coerceItems : List Literal → List Reader
  | [] => []
  | v :: rest => v.coerce :: coerceItems rest

/-- Fields that wait for their types. -/
def coerceFields : List (String × Literal) → List (String × Reader)
  | [] => []
  | (name, v) :: rest => (name, v.coerce) :: coerceFields rest

end

end ModelSchema.Graphql
