/-
What a document is made of, taken out of it: its types, the places where
directives stand, the types it names, its lists of arguments and its
literals.
-/
import ModelSchema.Graphql.Document

namespace ModelSchema.Graphql

-- ========================================================== selections

mutual

/-- A selection and all selections inside it. -/
def Selection.nested : Selection → List Selection
  | .field name args ds inner => .field name args ds inner :: nestedAll inner
  | .spread ds => [.spread ds]
  | .inline on ds inner => .inline on ds inner :: nestedAll inner

/-- Selections and all selections inside them. -/
def nestedAll : List Selection → List Selection
  | [] => []
  | s :: rest => s.nested ++ nestedAll rest

end

-- =============================================================== sites

/-- Whose directives are counted together: those of the schema and all
its extensions, those of a type and all its extensions, or those at one
place alone. -/
inductive SiteOwner where
  | schema
  | type (name : String)
  | place
deriving DecidableEq

/-- A place where directives stand. -/
structure Site where
  location : String
  owner : SiteOwner
  directives : List Directive

/-- The place of an argument or input field. -/
def InputValue.site (location : String) (v : InputValue) : Site :=
  ⟨location, .place, v.directives⟩

/-- The places in a field. -/
def FieldDefinition.sites (f : FieldDefinition) : List Site :=
  ⟨"FIELD_DEFINITION", .place, f.directives⟩
    :: f.arguments.map (InputValue.site "ARGUMENT_DEFINITION")

/-- The name of the place of a type. -/
def TypeKind.location : TypeKind → String
  | .scalar => "SCALAR"
  | .object => "OBJECT"
  | .interface => "INTERFACE"
  | .union => "UNION"
  | .enum => "ENUM"
  | .input => "INPUT_OBJECT"

/-- The places in a body. A field that an extension adds to an input type
counts as an argument. -/
def TypeBody.sites (isExtension : Bool) : TypeBody → List Site
  | .scalar | .union _ => []
  | .object _ fields | .interface _ fields => fields.flatMap FieldDefinition.sites
  | .enum values => values.map fun v => ⟨"ENUM_VALUE", .place, v.directives⟩
  | .input fields =>
      fields.map (InputValue.site
        (if isExtension then "ARGUMENT_DEFINITION" else "INPUT_FIELD_DEFINITION"))

/-- The places in a type or its extension. -/
def TypeDefinition.sites (isExtension : Bool) (t : TypeDefinition) : List Site :=
  ⟨t.body.kind.location, .type t.name, t.directives⟩ :: t.body.sites isExtension

/-- The place of a selection. -/
def Selection.site : Selection → Site
  | .field _ _ ds _ => ⟨"FIELD", .place, ds⟩
  | .spread ds => ⟨"FRAGMENT_SPREAD", .place, ds⟩
  | .inline _ ds _ => ⟨"INLINE_FRAGMENT", .place, ds⟩

/-- The name of the place of an operation. -/
def OperationKind.location : OperationKind → String
  | .query => "QUERY"
  | .mutation => "MUTATION"
  | .subscription => "SUBSCRIPTION"

/-- The places in a definition. -/
def Definition.sites : Definition → List Site
  | .operation kind vars ds inner =>
      ⟨kind.location, .place, ds⟩
        :: vars.map (fun v => ⟨"VARIABLE_DEFINITION", .place, v.directives⟩)
        ++ (nestedAll inner).map Selection.site
  | .fragment _ ds inner =>
      ⟨"FRAGMENT_DEFINITION", .place, ds⟩ :: (nestedAll inner).map Selection.site
  | .schema ds _ | .extendSchema ds _ => [⟨"SCHEMA", .schema, ds⟩]
  | .type t => t.sites false
  | .extendType t => t.sites true
  | .directive d => d.arguments.map (InputValue.site "ARGUMENT_DEFINITION")

-- ========================================================= named types

/-- The types that a field names. -/
def FieldDefinition.typeNames (f : FieldDefinition) : List String :=
  f.type.base :: f.arguments.map fun a => a.type.base

/-- The types that a body names. -/
def TypeBody.typeNames : TypeBody → List String
  | .scalar | .enum _ => []
  | .object above fields | .interface above fields =>
      above ++ fields.flatMap FieldDefinition.typeNames
  | .union members => members
  | .input fields => fields.map fun f => f.type.base

/-- The type that a selection names. -/
def Selection.typeName? : Selection → Option String
  | .inline on _ _ => on
  | _ => none

/-- The types that a definition names. -/
def Definition.typeNames : Definition → List String
  | .operation _ vars _ inner =>
      vars.map (fun v => v.type.base) ++ (nestedAll inner).filterMap Selection.typeName?
  | .fragment on _ inner => on :: (nestedAll inner).filterMap Selection.typeName?
  | .schema _ roots | .extendSchema _ roots => roots.map Prod.snd
  | .type t | .extendType t => t.body.typeNames
  | .directive d => d.arguments.map fun a => a.type.base

/-- Whether a definition describes a schema and is no operation or
fragment. -/
def Definition.isTypeSystem : Definition → Bool
  | .operation .. | .fragment .. => false
  | _ => true

-- ============================================= definitions of one kind

namespace Document

variable (d : Document)

/-- The types that are defined. -/
def types : List TypeDefinition :=
  d.filterMap fun | .type t => some t | _ => none

/-- The extensions of types. -/
def extensions : List TypeDefinition :=
  d.filterMap fun | .extendType t => some t | _ => none

/-- The types that are defined, and the extensions of types. -/
def typeParts : List TypeDefinition :=
  d.filterMap fun | .type t | .extendType t => some t | _ => none

/-- The directives that are defined. -/
def directives : List DirectiveDefinition :=
  d.filterMap fun | .directive d => some d | _ => none

/-- The root types that definitions and extensions of the schema name. -/
def roots : List (OperationKind × String) :=
  d.flatMap fun | .schema _ roots | .extendSchema _ roots => roots | _ => []

/-- The number of definitions of the schema. -/
def schemaCount : Nat :=
  d.countP fun | .schema .. => true | _ => false

/-- All places where directives stand. -/
def sites : List Site := d.flatMap Definition.sites

/-- All selections. -/
def selections : List Selection :=
  d.flatMap fun
    | .operation _ _ _ inner | .fragment _ _ inner => nestedAll inner
    | _ => []

/-- All lists of arguments that are given to fields and directives. -/
def argumentLists : List (List (String × Literal)) :=
  (d.sites.flatMap Site.directives).map Directive.arguments
    ++ d.selections.filterMap fun | .field _ args _ _ => some args | _ => none

/-- All arguments and input fields that are defined. -/
def inputValues : List InputValue :=
  d.flatMap fun
    | .type t | .extendType t =>
        match t.body with
        | .object _ fields | .interface _ fields => fields.flatMap FieldDefinition.arguments
        | .input fields => fields
        | _ => []
    | .directive d => d.arguments
    | _ => []

/-- All literals. -/
def literals : List Literal :=
  d.inputValues.filterMap InputValue.default
    ++ (d.flatMap fun
      | .operation _ vars _ _ => vars.filterMap VariableDefinition.default
      | _ => [])
    ++ d.argumentLists.flatten.map Prod.snd

end Document

end ModelSchema.Graphql
