/-
Models and components: named entities with attributes in the order of
their declaration.
-/
import ModelSchema.Model.Attribute
import ModelSchema.Naming

namespace ModelSchema

/-- A model or component. The global id is its GraphQL type name; a
component is known by its uid. -/
structure Model where
  name : Value
  globalId : Value
  kind : Value := .str "collectionType"
  attributes : List (String × Attribute) := []
  plugin : Value := .null
  info : List (Key × Value) := []
  uid : Value := .null
deriving DecidableEq, Inhabited

namespace Model

/-- The model of a definition. Without a global id of its own it takes
the one that its name stands for. -/
def ofDefinition (name : Value) (definition : Value) (plugin : Value) :
    Except Fault Model := do
  let settings ← definition.settings
  let get := Value.getD settings
  let declared ← (get "attributes").settingsIfGiven
  let attributes ← declared.mapM fun (key, d) =>
    return (key, ← Attribute.ofDefinition d)
  let globalId ←
    if (get "globalId").isGiven then pure (get "globalId") else Naming.globalIdFor name
  return {
    name := name
    globalId := globalId
    kind := (get "kind").orElse (.str "collectionType")
    attributes := attributes
    plugin := plugin
    info := ← (get "info").pairsIfGiven
    uid := get "uid" }

/-- Whether there is just one entity of the model. -/
def isSingleType (m : Model) : Bool := m.kind = .str "singleType"

/-- What the model says of itself. -/
def description (m : Model) : Value :=
  (Assoc.get? m.info (Key.ofText "description")).getD .null

/-- The attribute of a name. -/
def attribute? (m : Model) (name : String) : Option Attribute :=
  Assoc.get? m.attributes name

end Model

end ModelSchema
