/-
Which attributes are exposed, and the overrides that a type map gives to
the fields of a type. An entry of a type map hides a field only if it is
literally `false`.
-/
import ModelSchema.Model.Registry

namespace ModelSchema

/-- Decides for a model and an attribute name whether it is exposed. One
that looks models up by their global ids cannot be asked about a model
whose global id is no key. -/
structure Visibility where
  isEnabled : Model → String → Bool
  needsKey : Bool := false

namespace Visibility

/-- Everything is exposed. -/
def all : Visibility := { isEnabled := fun _ _ => true }

/-- Hides the fields whose entry under the model's global id is `false`. -/
def ofTypeMap (config : List (Key × Value)) : Visibility :=
  { needsKey := true
    isEnabled := fun m name =>
      match (Key.ofValue? m.globalId).bind (Assoc.get? config) with
      | some (.map entries) => Assoc.get? entries name ≠ some (.bool false)
      | _ => true }

/-- `ofTypeMap` for a configured type map. -/
def ofConfig (config : Value) : Except Fault Visibility := do
  return ofTypeMap (← config.pairsIfGiven)

/-- Asks about a model that need not be registered. -/
def ask (v : Visibility) (m : Model) (name : String) : Except Fault Bool := do
  if v.needsKey then discard m.globalId.key
  return v.isEnabled m name

end Visibility

/-- The overrides of the fields of a type; a type without any, or whose
overrides are no map, has none. -/
def fieldConfigurations (config : Value) (globalId : Value) :
    Except Fault (List (String × Value)) := do
  let entries := Key.ofTextEntries (← config.settingsIfGiven)
  return ((Assoc.get? entries (← globalId.key)).bind Value.entries?).getD []

end ModelSchema
