/-
GraphQL documents: the definitions of types and directives, their
extensions, and the operations and fragments that may stand beside them.
-/
namespace ModelSchema.Graphql

/-- A reference to a type. -/
inductive TypeExpr where
  | named (name : String)
  | list (item : TypeExpr)
  | nonNull (inner : TypeExpr)
deriving DecidableEq, Inhabited

/-- The name at the heart of a type reference. -/
def TypeExpr.base : TypeExpr → String
  | .named name => name
  | .list item => item.base
  | .nonNull inner => inner.base

/-- Whether a type reference excludes null. -/
def TypeExpr.isNonNull : TypeExpr → Bool
  | .nonNull _ => true
  | _ => false

/-- A type reference as it is written. -/
def TypeExpr.text : TypeExpr → String
  | .named name => name
  | .list item => "[" ++ item.text ++ "]"
  | .nonNull inner => inner.text ++ "!"

/-- A literal value. Numbers are kept as they are written. -/
inductive Literal where
  | variable (name : String)
  | int (text : String)
  | float (text : String)
  | string (value : String)
  | bool (b : Bool)
  | null
  | enum (name : String)
  | list (items : List Literal)
  | object (fields : List (String × Literal))
deriving Inhabited

/-- A directive with its arguments. -/
structure Directive where
  name : String
  arguments : List (String × Literal)
deriving Inhabited

/-- An argument of a field, or a field of an input type. -/
structure InputValue where
  description : Option String
  name : String
  type : TypeExpr
  default : Option Literal
  directives : List Directive
deriving Inhabited

/-- A field of an object or interface. -/
structure FieldDefinition where
  description : Option String
  name : String
  arguments : List InputValue
  type : TypeExpr
  directives : List Directive
deriving Inhabited

/-- A value of an enum. -/
structure EnumValue where
  description : Option String
  name : String
  directives : List Directive
deriving Inhabited

/-- What a type is made of. -/
inductive TypeBody where
  | scalar
  | object (interfaces : List String) (fields : List FieldDefinition)
  | interface (interfaces : List String) (fields : List FieldDefinition)
  | union (members : List String)
  | enum (values : List EnumValue)
  | input (fields : List InputValue)
deriving Inhabited

/-- The kinds of types. -/
inductive TypeKind where
  | scalar | object | interface | union | enum | input
deriving DecidableEq, Inhabited

/-- The kind of a body. -/
def TypeBody.kind : TypeBody → TypeKind
  | .scalar => .scalar
  | .object .. => .object
  | .interface .. => .interface
  | .union _ => .union
  | .enum _ => .enum
  | .input _ => .input

/-- The definition or extension of a type. -/
structure TypeDefinition where
  description : Option String
  name : String
  directives : List Directive
  body : TypeBody
deriving Inhabited

/-- Whether an extension adds nothing. -/
def TypeDefinition.isEmptyExtension (t : TypeDefinition) : Bool :=
  t.directives.isEmpty &&
    match t.body with
    | .scalar => true
    | .object above fields | .interface above fields => above.isEmpty && fields.isEmpty
    | .union members => members.isEmpty
    | .enum values => values.isEmpty
    | .input fields => fields.isEmpty

/-- The definition of a directive. -/
structure DirectiveDefinition where
  name : String
  arguments : List InputValue
  repeatable : Bool
  locations : List String
deriving Inhabited

/-- The kinds of operations. -/
inductive OperationKind where
  | query | mutation | subscription
deriving DecidableEq, Inhabited

/-- The kind that a word names. -/
def OperationKind.ofWord? : String → Option OperationKind
  | "query" => some .query
  | "mutation" => some .mutation
  | "subscription" => some .subscription
  | _ => none

/-- What a query asks for. -/
inductive Selection where
  | field (name : String) (arguments : List (String × Literal))
      (directives : List Directive) (selections : List Selection)
  | spread (directives : List Directive)
  | inline (on : Option String) (directives : List Directive)
      (selections : List Selection)
deriving Inhabited

/-- A variable of an operation. -/
structure VariableDefinition where
  type : TypeExpr
  default : Option Literal
  directives : List Directive
deriving Inhabited

/-- A definition at the top of a document. -/
inductive Definition where
  | operation (kind : OperationKind) (vars : List VariableDefinition)
      (directives : List Directive) (selections : List Selection)
  | fragment (on : String) (directives : List Directive) (selections : List Selection)
  | schema (directives : List Directive) (roots : List (OperationKind × String))
  | type (t : TypeDefinition)
  | directive (d : DirectiveDefinition)
  | extendSchema (directives : List Directive) (roots : List (OperationKind × String))
  | extendType (t : TypeDefinition)
deriving Inhabited

/-- A document. -/
abbrev Document := List Definition

/-- The name of the object type that a definition defines. -/
def Definition.objectTypeName? : Definition → Option String
  | .type t =>
      match t.body with
      | .object .. => some t.name
      | _ => none
  | _ => none

/-- The names of the object types that a document defines, in order. -/
def Document.objectTypeNames (d : Document) : List String :=
  d.filterMap Definition.objectTypeName?

end ModelSchema.Graphql
