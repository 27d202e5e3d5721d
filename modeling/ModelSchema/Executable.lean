/-
Executable schemas: the schema of a compiled text with its scalars bound
to their codecs, its fields to resolvers, and its unions and interfaces to
type rules. What fits nothing in the schema is told and left out.
-/
import ModelSchema.Compiler.Build
import ModelSchema.Graphql.Schema.Reading
import ModelSchema.Scalar.Codec
import ModelSchema.Scalar.Standard

namespace ModelSchema

open Graphql (Literal TypeKind)

-- ============================================================= literals

mutual

/-- The plain value of a literal. A variable has none here, and an integer
of too many digits is no number. -/
def Graphql.Literal.toValue : Literal → Value
  | .variable _ | .null => .null
  | .int text => ((Integer.read? text.toList).map Value.int).getD (.float Double.undefined)
  | .float text => ((Decimal.read? text.toList).map Value.float).getD .null
  | .string value => .str value
  | .bool b => .bool b
  | .enum name => .str name
  | .list items => .list (literalItems items)
  | .object fields => .map (Assoc.ofPairs (literalFields fields))

/-- The plain values of literals. -/
def literalItems : List Literal → List Value
  | [] => []
  | v :: rest => v.toValue :: literalItems rest

/-- The plain values of the fields of a literal. -/
def literalFields : List (String × Literal) → List (String × Value)
  | [] => []
  | (name, v) :: rest => (name, v.toValue) :: literalFields rest

end

-- =================================================== executable schemas

/-- A schema with what is bound to it. -/
structure Executable where
  schema : Graphql.Schema
  resolvers : List ((String × String) × Content) := []
  typeRules : List (String × Content) := []
  notices : List Notice := []

namespace Executable

/-- The entry under which a type rule stands. -/
def ruleEntry : String := "__resolveType"

/-- The callable of an entry: the entry itself, or what it holds as
`resolve` or `resolver`. -/
def callable? : Content → Option Content
  | .given (.map entries) =>
      (["resolve", "resolver"].map fun key => Content.given (Value.getD entries key)).find?
        Content.isCallable
  | c => if c.isCallable then some c else none

/-- Binds a callable to a field of a type, or to an abstract type as its
rule. -/
def bindEntry (x : Executable) (type : String) (kind : TypeKind) (field : String)
    (c : Content) : Executable :=
  if field = ruleEntry then
    if kind = .union || kind = .interface then
      { x with typeRules := Assoc.put type c x.typeRules }
    else x
  else if (x.schema.fieldNames type).contains field then
    { x with resolvers := Assoc.put (type, field) c x.resolvers }
  else { x with notices := x.notices ++ [.unmatchedResolver type field] }

/-- The type of the schema that a key names, with its kind. -/
def typeOf? (schema : Graphql.Schema) (key : Key) : Option (String × TypeKind) :=
  match key.value with
  | .str name => (schema.kind? name).map fun kind => (name, kind)
  | _ => none

/-- Binds what an entry has under the name of a field, if it can be
called. -/
def bindField (x : Executable) (type : String) (kind : TypeKind) (e : String × Entry) :
    Executable :=
  match callable? e.2.content with
  | some c => x.bindEntry type kind e.1 c
  | none => x

/-- Binds the callables of a section. -/
def bindSection (x : Executable) (key : Key) : Section → Executable
  | .plain _ => x
  | .entries fields =>
      match typeOf? x.schema key with
      | none => { x with notices := x.notices ++ [.unknownResolverType key.value] }
      | some (type, kind) => fields.foldl (fun x e => x.bindField type kind e) x

/-- Binds the sections of a resolver map, one after another. -/
def bindAll (x : Executable) (resolvers : SectionMap) : Executable :=
  resolvers.foldl (fun x (type, s) => x.bindSection type s) x

/-- A schema with resolvers bound to it. -/
def bind (schema : Graphql.Schema) (resolvers : SectionMap) : Executable :=
  bindAll { schema := schema } resolvers

/-- The executable schema of a compiled one, which must have something to
query. -/
def ofCompiled (s : CompiledSchema) : Except Fault Executable :=
  if s.isEmpty then .error .emptySchema
  else
    match Graphql.parse s.sdl with
    | .error e => .error (.badSyntax e)
    | .ok d => do return bind (← Graphql.Document.schema d) s.resolvers

-- =========================================================== reading it

variable (x : Executable)

/-- The resolver of a field. -/
def resolver? (type field : String) : Option Content :=
  Assoc.get? x.resolvers (type, field)

/-- The rule of an abstract type. -/
def typeRule? (type : String) : Option Content := Assoc.get? x.typeRules type

/-- The scalar whose codecs a type is bound to. -/
def scalar? (type : String) : Option Scalar :=
  if x.schema.kind? type = some .scalar then Scalar.ofName? type else none

/-- What a type says of itself. A scalar that is bound says what its codec
does, unless it says something itself. -/
def descriptionOf (t : Graphql.SchemaType) : Option String :=
  match t.description.filter (· ≠ "") with
  | some text => some text
  | none => ((x.scalar? t.name).bind Scalar.description?).or t.description

/-- The kind of a type that must be there. -/
def kindOf (type : String) : Except Fault TypeKind :=
  match x.schema.kind? type with
  | some kind => .ok kind
  | none => .error .missingSetting

/-- The type of a value of an abstract type. -/
def resolveType (type : String) (v : Value) : Except Fault Value := do
  let kind ← x.kindOf type
  if kind ≠ .union ∧ kind ≠ .interface then throw .noSuchMember
  match x.typeRule? type with
  | some rule => rule.call v
  | none => throw .wrongKind

/-- The codec of a standard scalar of the schema. -/
def standard? (type : String) : Option StandardScalar :=
  if x.schema.kind? type = some .scalar then StandardScalar.ofName? type else none

/-- The value of an enum that a text names. -/
def enumValue (type : String) (v : Value) : Except Fault Value :=
  match (x.schema.type? type).map Graphql.SchemaType.body, v with
  | some (.enum values), .str name =>
      if values.contains name then .ok v else .error .badEnumValue
  | _, _ => .error .badEnumValue

/-- Runs a codec of a type. A scalar that is not bound leaves values as
they are. -/
def code (standard : StandardScalar → Value → Except Fault Value)
    (bound : Scalar → Value → Except Fault Value) (type : String) (v : Value) :
    Except Fault Value := do
  match ← x.kindOf type with
  | .scalar =>
      match x.standard? type, x.scalar? type with
      | some s, _ => standard s v
      | none, some s => bound s v
      | none, none => return v
  | .enum => x.enumValue type v
  | _ => throw .noSuchMember

/-- A value as it is written for a client. -/
def serialize (type : String) (v : Value) : Except Fault Value :=
  x.code StandardScalar.serialize Scalar.serialize type v

/-- The value that a client has written. -/
def parseValue (type : String) (v : Value) : Except Fault Value :=
  x.code StandardScalar.parseValue Scalar.parseValue type v

/-- The value of a literal of a type. An enum takes no texts. -/
def parseLiteral (type : String) (v : Literal) : Except Fault Value := do
  match ← x.kindOf type, x.standard? type, v with
  | .enum, _, .enum name => x.enumValue type (.str name)
  | .enum, _, _ => throw .badEnumValue
  | _, some s, _ => s.parseLiteral v
  | _, none, _ => x.parseValue type v.toValue

/-- The value of the text of a literal. The type is looked at before the
text is. -/
def readLiteral (type : String) (text : String) : Except Fault Value := do
  let kind ← x.kindOf type
  if kind ≠ .scalar ∧ kind ≠ .enum then throw .noSuchMember
  match Graphql.parseLiteral text with
  | .ok v => x.parseLiteral type v
  | .error _ => throw .badLiteral

end Executable

end ModelSchema
