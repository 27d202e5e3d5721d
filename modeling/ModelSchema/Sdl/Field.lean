/-
Field lines of the schema definition language. A field has a key (its
name, perhaps with arguments in parentheses), a type, and in operation
mode perhaps an ordered map of arguments. Its description and its
deprecation come from the configuration of its name; in field mode the
attribute of that name steps in for what the configuration leaves open.
-/
import ModelSchema.Model.Basic
import ModelSchema.Sdl.Block
import ModelSchema.Text.Blank

namespace ModelSchema.Sdl

-- ============================================================ metadata

/-- The description of a field and the reason of its deprecation. -/
structure Metadata where
  description : Value := .null
  deprecated : Value := .null
deriving DecidableEq, Inhabited

/-- The metadata that a map gives. -/
def Metadata.ofSettings (settings : List (String × Value)) : Metadata :=
  ⟨Value.getD settings "description", Value.getD settings "deprecated"⟩

/-- The metadata that a configuration gives: a text is a description. -/
def Metadata.ofConfig : Value → Metadata
  | .str s => { description := .str s }
  | .map settings => .ofSettings settings
  | _ => {}

/-- What one metadata leaves open is taken from another. -/
def Metadata.orElse (a b : Metadata) : Metadata :=
  ⟨a.description.orElse b.description, a.deprecated.orElse b.deprecated⟩

/-- The metadata of an attribute. -/
def Metadata.ofAttribute (a : Attribute) : Metadata := ⟨a.description, a.deprecated⟩

/-- Whether there is anything to say. -/
def Metadata.isGiven (m : Metadata) : Bool := m.description.isGiven || m.deprecated.isGiven

/-- A field line with its description before it and its deprecation after
it. -/
def applyMetadata (line : String) (m : Metadata) : String :=
  (if m.description.isGiven then descriptionBlock m.description.text else "")
    ++ line
    ++ (if m.deprecated.isGiven then
          " @deprecated(reason: " ++ Text.quoted m.deprecated.text ++ ")"
        else "")

-- ============================================================== fields

/-- What follows the key of a field. -/
structure FieldShape where
  args : List (String × String) := []
  type : String
deriving DecidableEq, Inhabited

/-- A map of fields, in order. -/
abbrev FieldMap := List (String × FieldShape)

/-- Arguments in parentheses; none without arguments. -/
def renderArguments (args : List (String × String)) : String :=
  if args.isEmpty then ""
  else "(" ++ String.intercalate ", " (args.map fun (name, type) => name ++ ": " ++ type)
    ++ ")"

/-- A field without its metadata. -/
def fieldLine (key : String) (shape : FieldShape) : String :=
  key ++ renderArguments shape.args ++ ": " ++ shape.type

/-- The name that a key starts with. -/
def baseName (key : String) : String :=
  Text.strip (String.ofList (key.toList.takeWhile (· != '(')))

/-- The configurations of field names. -/
abbrev Configurations := List (String × Value)

/-- The metadata of a field by its configuration alone. -/
def configuredMetadata (configs : Configurations) (key : String) : Metadata :=
  .ofConfig (Value.getD configs (baseName key))

/-- The metadata of a field by its configuration, then by the attribute of
its name. -/
def fieldMetadata (configs : Configurations) (m : Option Model) (key : String) :
    Metadata :=
  (configuredMetadata configs key).orElse
    (match m.bind fun m => m.attribute? (baseName key) with
      | some a => .ofAttribute a
      | none => {})

/-- The lines of the fields of a type. -/
def renderFields (fields : FieldMap) (configs : Configurations) (m : Option Model) :
    String :=
  String.intercalate "\n"
    (fields.map fun (key, shape) =>
      applyMetadata (fieldLine key shape) (fieldMetadata configs m key))

/-- The lines of operations. -/
def renderOperations (fields : FieldMap) (configs : Configurations) : String :=
  String.intercalate "\n"
    (fields.map fun (key, shape) =>
      applyMetadata (fieldLine key shape) (configuredMetadata configs key))

-- ========================================================= descriptions

/-- The description of a whole type: the one that its configuration gives
under `_description`, else the model's own. -/
def typeDescription (config : Value) (m : Option Model) : String :=
  let own := match config with
    | .map settings => Value.getD settings "_description"
    | _ => .null
  let text := own.orElse (match m with | some m => m.description | none => .null)
  if text.isGiven then descriptionBlock text.text else ""

end ModelSchema.Sdl
