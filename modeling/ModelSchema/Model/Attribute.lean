/-
Attributes of models. An attribute is a scalar, an enumeration, a
component, a dynamic zone or a relation, told apart by its type and its
targets; any type that is not one of the special ones is a scalar.
-/
import ModelSchema.Value.Reading

namespace ModelSchema

/-- A declared attribute. A setting holds whatever the configuration
holds; null where it holds nothing. -/
structure Attribute where
  type : Value := .null
  required : Bool := false
  default : Option Value := none
  enum : List Value := []
  enumName : Value := .null
  component : Value := .null
  repeatable : Bool := false
  components : List Value := []
  model : Value := .null
  collection : Value := .null
  plugin : Value := .null
  description : Value := .null
  deprecated : Value := .null
  hidden : Bool := false
deriving DecidableEq, Inhabited

namespace Attribute

/-- The kinds of attributes. -/
inductive Kind where
  | scalar | enumeration | component | dynamicZone | relation | unknown
deriving DecidableEq

/-- The relation target that stands for any model. -/
def wildcard : Value := .str "*"

/-- The attribute of a definition. -/
def ofDefinition (definition : Value) : Except Fault Attribute := do
  let settings ← definition.settings
  let get := Value.getD settings
  return {
    type := get "type"
    required := (get "required").isGiven
    default := Assoc.get? settings "default"
    enum := ← (get "enum").itemsIfGiven
    enumName := (get "enumName").orElse (get "enum_name")
    component := get "component"
    repeatable := (get "repeatable").isGiven
    components := ← (get "components").itemsIfGiven
    model := get "model"
    collection := get "collection"
    plugin := get "plugin"
    description := get "description"
    deprecated := get "deprecated"
    hidden := (get "private").isGiven }

/-- What kind of attribute it is. -/
def kind (a : Attribute) : Kind :=
  if a.type = .str "component" then .component
  else if a.type = .str "dynamiczone" then .dynamicZone
  else if a.type = .str "enumeration" then .enumeration
  else if a.type.isGiven then .scalar
  else if a.model.isGiven || a.collection.isGiven then .relation
  else .unknown

/-- An enumeration is told by its type. -/
theorem kind_eq_enumeration_iff (a : Attribute) :
    a.kind = .enumeration ↔ a.type = .str "enumeration" := by
  unfold kind
  grind

/-- A dynamic zone is told by its type. -/
theorem kind_eq_dynamicZone_iff (a : Attribute) :
    a.kind = .dynamicZone ↔ a.type = .str "dynamiczone" := by
  unfold kind
  grind

/-- Whether it holds many values of its target. -/
def isPlural (a : Attribute) : Bool := a.collection.isGiven

/-- The model that a relation points at. -/
def target (a : Attribute) : Value := a.model.orElse a.collection

end Attribute

/-- The word for a kind. -/
def Attribute.Kind.text : Attribute.Kind → String
  | .scalar => "scalar"
  | .enumeration => "enumeration"
  | .component => "component"
  | .dynamicZone => "dynamiczone"
  | .relation => "relation"
  | .unknown => "unknown"

end ModelSchema
