/-
What every schema has before anything is defined: the standard scalars,
the types that describe the schema itself, and the standard directives.
-/
import ModelSchema.Graphql.Document

namespace ModelSchema.Graphql.Standard

-- =============================================================== types

/-- The standard scalars. -/
def scalars : List String := ["String", "Int", "Float", "Boolean", "ID"]

/-- The types by which a schema describes itself, with their fields; the
enums among them have none. -/
def introspection : List (String × TypeKind × List String) :=
  [("__Schema", .object,
      ["description", "types", "queryType", "mutationType", "subscriptionType",
        "directives"]),
    ("__Directive", .object,
      ["name", "description", "isRepeatable", "isDeprecated", "deprecationReason",
        "locations", "args"]),
    ("__DirectiveLocation", .enum, []),
    ("__Type", .object,
      ["kind", "name", "description", "specifiedByURL", "fields", "interfaces",
        "possibleTypes", "enumValues", "inputFields", "ofType", "isOneOf"]),
    ("__Field", .object,
      ["name", "description", "args", "type", "isDeprecated", "deprecationReason"]),
    ("__InputValue", .object,
      ["name", "description", "type", "defaultValue", "isDeprecated", "deprecationReason"]),
    ("__EnumValue", .object, ["name", "description", "isDeprecated", "deprecationReason"]),
    ("__TypeKind", .enum, [])]

/-- The kind of a standard type. -/
def kind? (name : String) : Option TypeKind :=
  if scalars.contains name then some .scalar
  else (introspection.lookup name).map Prod.fst

/-- The places where a directive may stand. -/
def directiveLocations : List String :=
  ["QUERY", "MUTATION", "SUBSCRIPTION", "FIELD", "FRAGMENT_DEFINITION", "FRAGMENT_SPREAD",
    "INLINE_FRAGMENT", "VARIABLE_DEFINITION", "SCHEMA", "SCALAR", "OBJECT",
    "FIELD_DEFINITION", "ARGUMENT_DEFINITION", "INTERFACE", "UNION", "ENUM", "ENUM_VALUE",
    "INPUT_OBJECT", "INPUT_FIELD_DEFINITION", "DIRECTIVE_DEFINITION"]

/-- The values of a standard enum. -/
def enumValues? (name : String) : Option (List String) :=
  if name = "__DirectiveLocation" then some directiveLocations
  else if name = "__TypeKind" then
    some ["SCALAR", "OBJECT", "INTERFACE", "UNION", "ENUM", "INPUT_OBJECT", "LIST", "NON_NULL"]
  else none

/-- Whether a name is that of a standard type. -/
def isType (name : String) : Bool := (kind? name).isSome

-- ========================================================== directives

/-- An argument of a standard directive. -/
def argument (name : String) (type : TypeExpr) (default : Option Literal) : InputValue :=
  ⟨none, name, type, default, []⟩

/-- Why something is deprecated when nothing is said. -/
def deprecationReason : String := "No longer supported"

/-- The standard directives. -/
def directives : List DirectiveDefinition :=
  let condition := argument "if" (.nonNull (.named "Boolean")) none
  let executable := ["FIELD", "FRAGMENT_SPREAD", "INLINE_FRAGMENT"]
  [⟨"include", [condition], false, executable⟩,
    ⟨"skip", [condition], false, executable⟩,
    ⟨"deprecated", [argument "reason" (.named "String") (some (.string deprecationReason))],
      false,
      ["FIELD_DEFINITION", "ARGUMENT_DEFINITION", "INPUT_FIELD_DEFINITION", "ENUM_VALUE",
        "DIRECTIVE_DEFINITION"]⟩,
    ⟨"specifiedBy", [argument "url" (.nonNull (.named "String")) none], false, ["SCALAR"]⟩,
    ⟨"oneOf", [], false, ["INPUT_OBJECT"]⟩]

end ModelSchema.Graphql.Standard
