/-
Schemas: types with their fields, members and values, and the roots of
operations.
-/
import ModelSchema.Graphql.Standard

namespace ModelSchema.Graphql

-- ============================================================== schemas

/-- A field of a type, with the arguments that it takes. -/
structure SchemaField where
  name : String
  description : Option String
  type : TypeExpr
  deprecation : Option String
  arguments : List (String × TypeExpr) := []

/-- What a type of a schema is made of. -/
inductive SchemaBody where
  | scalar
  | object (fields : List SchemaField)
  | interface (fields : List SchemaField)
  | union (members : List String)
  | enum (values : List String)
  | input (fields : List SchemaField)

/-- The kind of a body. -/
def SchemaBody.kind : SchemaBody → TypeKind
  | .scalar => .scalar
  | .object _ => .object
  | .interface _ => .interface
  | .union _ => .union
  | .enum _ => .enum
  | .input _ => .input

/-- The fields by which an object or interface is resolved. -/
def SchemaBody.resolvable : SchemaBody → List SchemaField
  | .object fields | .interface fields => fields
  | _ => []

/-- A type of a schema. -/
structure SchemaType where
  name : String
  description : Option String
  body : SchemaBody

/-- A schema: its own types, the standard scalars that it uses, and its
roots. -/
structure Schema where
  types : List SchemaType
  scalars : List String
  roots : List (OperationKind × String)

namespace Schema

variable (s : Schema)

/-- The type of the schema's own with a name. -/
def type? (name : String) : Option SchemaType := s.types.find? fun t => t.name = name

/-- The root of a kind of operation. -/
def root? (kind : OperationKind) : Option String := s.roots.lookup kind

/-- The kind of a type of the schema. A standard scalar is one of them if
it is used. -/
def kind? (name : String) : Option TypeKind :=
  match s.type? name with
  | some t => some t.body.kind
  | none =>
      if Standard.scalars.contains name && !s.scalars.contains name then none
      else Standard.kind? name

/-- The names of the fields by which a type is resolved. -/
def fieldNames (name : String) : List String :=
  match s.type? name with
  | some t => t.body.resolvable.map SchemaField.name
  | none => ((Standard.introspection.lookup name).map Prod.snd).getD []

end Schema

end ModelSchema.Graphql
