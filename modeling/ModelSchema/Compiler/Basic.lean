/-
The compiler's givens and its object types. A schema is compiled from a
registry, the merged contributions of all sources, a visibility and a
configuration; the contributed type map overrides descriptions and
deprecations.
-/
import ModelSchema.Fragment.Merge
import ModelSchema.Inputs

namespace ModelSchema

/-- Options of the generated operations: whether there are any, and the
arguments of list queries. -/
structure Config where
  shadowCrud : Bool := true
  listArguments : Value :=
    .map [("sort", .str "String"), ("limit", .str "Int"), ("start", .str "Int"),
      ("where", .str "JSON")]

/-- The configuration of a document; an option that there is none of is
refused. -/
def Config.ofDocument (v : Value) : Except Fault Config :=
  match v with
  | .null => .ok {}
  | .map settings =>
      settings.foldlM
        (fun c (key, v) =>
          if key = "shadow_crud" then .ok { c with shadowCrud := v.isGiven }
          else if key = "default_list_arguments" then .ok { c with listArguments := v }
          else .error .wrongKind)
        {}
  | _ => .error .wrongKind

/-- What a schema is compiled from. -/
structure Compiler where
  registry : Registry
  contributed : Fragment
  visibility : Visibility
  config : Config

namespace Compiler

/-- A compiler for contributed fragments. Without a visibility of its own
the contributed type map decides what is hidden. -/
def ofFragments (registry : Registry) (fragments : List Fragment)
    (visibility : Option Visibility) (config : Config) : Compiler :=
  let contributed := Fragment.merge fragments
  { registry := registry
    contributed := contributed
    visibility := visibility.getD (.ofTypeMap contributed.type.toValues)
    config := config }

variable (c : Compiler)

/-- The exposed attributes of a model. -/
def exposed (m : Model) : List (String × Attribute) := Inputs.exposed c.visibility m

/-- The fields of an object type: an identifier, unless an attribute takes
its name, then the exposed attributes. -/
def objectFields (m : Model) : Except Fault Sdl.FieldMap := do
  let fields ← Inputs.fields c.registry c.visibility m .read
  let hasId := (c.exposed m).any fun (name, _) => name = "id"
  return if hasId then fields else ("id", { type := "ID!" }) :: fields

/-- The object type of a model. -/
def typeDefinition (m : Model) : Except Fault String := do
  let fields ← c.objectFields m
  let overrides := c.contributed.overridesFor (← m.globalId.key)
  return Sdl.renderBlock "type" m.globalId.text (Sdl.renderFields fields overrides (some m))
    (Sdl.typeDescription (.map overrides) (some m))

/-- The compiler after an entry of its registry has become another. -/
def replacing (old new : Model) : Compiler := { c with registry := c.registry.replace old new }

/-- A model after its object type has been made. -/
def modelAfterType (m : Model) : Model := Inputs.afterFields c.registry c.visibility m .read

end Compiler

end ModelSchema
