/-
The schema that a document describes: its types with their extensions,
and the roots of its operations. A type that has the name of a standard
one is put aside for it. Of several mistakes the one that is met first
counts: what directives say of scalars and enum values, then the arguments
of directives, then type after type, field after field.
-/
import ModelSchema.Graphql.Coercion
import ModelSchema.Graphql.Validity

namespace ModelSchema.Graphql

namespace Document

variable (d : Document)

-- ============================================== arguments of directives

/-- The first directive of a name. -/
def firstNamed (name : String) (ds : List Directive) : Option Directive :=
  ds.find? fun use => use.name = name

/-- Why something is deprecated, if it is. The reason is a text or
null. -/
def deprecation (ds : List Directive) : Except Fault (Option String) :=
  match firstNamed "deprecated" ds with
  | none => .ok none
  | some use =>
      match use.arguments.lookup "reason" with
      | none => .ok (some Standard.deprecationReason)
      | some (.string reason) => .ok (some reason)
      | some .null => .ok none
      | some _ => .error .badDirectiveArgument

/-- Checks where a scalar says that it is specified, which is a text. -/
def checkSpecification (ds : List Directive) : Except Fault Unit :=
  match firstNamed "specifiedBy" ds with
  | none => .ok ()
  | some use =>
      match use.arguments.lookup "url" with
      | some (.string _) => .ok ()
      | _ => .error .badDirectiveArgument

-- ======================================================= kinds of types

/-- The kind of a type that the document names. -/
def kindOf (name : String) : Option TypeKind :=
  (Standard.kind? name).or ((d.types.find? fun t => t.name = name).map fun t => t.body.kind)

/-- Whether a field may be of a type. -/
def isOutput (t : TypeExpr) : Bool := (d.kindOf t.base).any fun k => k ≠ .input

/-- Whether an argument may be of a type. -/
def isInput (t : TypeExpr) : Bool :=
  (d.kindOf t.base).any fun k => k = .scalar || k = .enum || k = .input

/-- Asks for a condition that types have to fulfil. -/
def demand (condition : Bool) : Except Fault Unit :=
  if condition then .ok () else .error .invalidSchema

/-- Asks for names to be those of types of a kind. -/
def demandKind (kind : TypeKind) (names : List String) : Except Fault Unit :=
  demand (names.all fun name => d.kindOf name = some kind)

-- =============================================================== bodies

/-- A body with what extensions add to it. -/
def extendBody : TypeBody → TypeBody → TypeBody
  | .object above fields, .object above' fields' => .object (above ++ above') (fields ++ fields')
  | .interface above fields, .interface above' fields' =>
      .interface (above ++ above') (fields ++ fields')
  | .union members, .union members' => .union (members ++ members')
  | .enum values, .enum values' => .enum (values ++ values')
  | .input fields, .input fields' => .input (fields ++ fields')
  | body, _ => body

/-- The body of a type with all its extensions. -/
def fullBody (t : TypeDefinition) : TypeBody :=
  ((d.extensions.filter fun e => e.name = t.name).map TypeDefinition.body).foldl
    extendBody t.body

/-- The types of the document's own. -/
def ownTypes : List TypeDefinition := d.types.filter fun t => !Standard.isType t.name

/-- The type of the document's own with a name. -/
def ownType? (name : String) : Option TypeDefinition := d.ownTypes.find? fun t => t.name = name

/-- What a named type makes of literals. -/
def inputKind (name : String) : InputKind :=
  match StandardScalar.ofName? name, Standard.enumValues? name with
  | some s, _ => .standard s
  | none, some values => .enum values
  | none, none =>
      match d.ownType? name with
      | none => .output
      | some t =>
          match d.fullBody t with
          | .scalar => .scalar
          | .enum values => .enum (values.map EnumValue.name)
          | .input _ => .input (firstNamed "oneOf" t.directives).isSome
          | _ => .output

-- =============================================================== fields

/-- Finds something out that needs no fields. -/
def certain {α : Type} (x : Except Fault α) : FieldWork α := StateT.lift x

/-- A field of an input type, or an argument. Its default is read first. -/
def inputField (types : InputTypes) (v : InputValue) : FieldWork InputField := do
  let default ← match v.default with
    | some literal => literal.coerce types v.type
    | none => pure .nothing
  let deprecation ← certain (deprecation v.directives)
  certain (demand (d.isInput v.type))
  return { name := v.name
           description := v.description
           type := v.type
           deprecation := deprecation
           default := default }

/-- The definitions of the fields of an input type. -/
def inputDefinitions (name : String) : List InputValue :=
  match (d.ownType? name).map d.fullBody with
  | some (.input fields) => fields
  | _ => []

/-- The fields of an input type. A default may need the fields of other
input types; one that needs those of a type whose fields it is part of has
no end, and is refused when there is no room for another type. -/
def inputFields : (room : Nat) → String → FieldWork (List InputField)
  | 0, _ => throw .invalidSchema
  | room + 1, name => do
      match Assoc.get? (← get) name with
      | some fields => return fields
      | none =>
          let types : InputTypes := ⟨d.inputKind, inputFields room⟩
          let fields ← (d.inputDefinitions name).mapM (d.inputField types)
          modify (Assoc.put name fields)
          return fields

/-- What is known of the types that defaults are of: there is room for
each of them once. -/
def inputTypes : InputTypes := ⟨d.inputKind, d.inputFields d.types.length⟩

/-- An argument. -/
def argument (v : InputValue) : FieldWork (String × TypeExpr) := do
  let field ← d.inputField d.inputTypes v
  return (field.name, field.type)

/-- A field of an object or interface. -/
def outputField (f : FieldDefinition) : FieldWork SchemaField := do
  let arguments ← f.arguments.mapM d.argument
  let deprecation ← certain (deprecation f.directives)
  certain (demand (d.isOutput f.type))
  return { name := f.name
           description := f.description
           type := f.type
           deprecation := deprecation
           arguments := arguments }

-- ================================================================ types

/-- Checks the directives of scalars and enum values, which are read
before any field is. -/
def checkEarly (t : TypeDefinition) : Except Fault Unit :=
  match d.fullBody t with
  | .scalar => checkSpecification t.directives
  | .enum values => values.forM fun v => discard (deprecation v.directives)
  | _ => .ok ()

/-- The body of a type of the schema. -/
def schemaBody (name : String) : TypeBody → FieldWork SchemaBody
  | .scalar => return .scalar
  | .object above fields => do
      certain (d.demandKind .interface above)
      return .object (← fields.mapM d.outputField)
  | .interface above fields => do
      certain (d.demandKind .interface above)
      return .interface (← fields.mapM d.outputField)
  | .union members => do
      certain (d.demandKind .object members)
      return .union members
  | .enum values => return .enum (values.map EnumValue.name)
  | .input _ => return .input ((← d.inputTypes.fields name).map InputField.toSchemaField)

/-- A type of the schema. -/
def schemaType (t : TypeDefinition) : FieldWork SchemaType := do
  return ⟨t.name, t.description, ← d.schemaBody t.name (d.fullBody t)⟩

-- ================================================== the whole of a schema

/-- The roots of a schema. Without a definition of the schema a type with
the name of a root is that root. -/
def schemaRoots : List (OperationKind × String) :=
  let named := [(OperationKind.query, "Query"), (.mutation, "Mutation"),
    (.subscription, "Subscription")].filter fun (_, name) => d.definesType name
  if d.schemaCount = 0 then named ++ d.roots else d.roots

/-- The types that a definition makes the schema use. One that is put aside
for a standard type makes it use none. -/
def typeNamesOf (x : Definition) : List String :=
  match x with
  | .type t | .extendType t => if Standard.isType t.name then [] else x.typeNames
  | _ => if x.isTypeSystem then x.typeNames else []

/-- The standard scalars that the schema uses. Texts and truth values are
used by every schema. -/
def usedScalars : List String :=
  let used := d.flatMap typeNamesOf
  Standard.scalars.filter fun name =>
    name = "String" || name = "Boolean" || used.contains name || d.definesType name

/-- The types of the schema that a document describes, after the arguments
of its directives. -/
def schemaTypes : FieldWork (List SchemaType) := do
  d.directives.forM fun dir => discard (dir.arguments.mapM d.argument)
  d.ownTypes.mapM d.schemaType

/-- The schema that a document describes. -/
def schema : Except Fault Schema := do
  demand d.isValid
  d.ownTypes.forM d.checkEarly
  let types ← d.schemaTypes.run' []
  return { types := types, scalars := d.usedScalars, roots := d.schemaRoots }

end Document

end ModelSchema.Graphql
