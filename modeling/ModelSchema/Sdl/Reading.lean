/-
Field maps as configured: which values may stand for fields, arguments
and metadata, and in which order what does not fit is found out.
-/
import ModelSchema.Sdl.Field
import ModelSchema.Value.Reading

namespace ModelSchema.Sdl

/-- The arguments of a configured argument map. -/
def readArguments (args : Value) : Except Fault (List (String × String)) := do
  return (← args.settingsIfGiven).map fun (name, type) => (name, type.text)

/-- What follows the key of a configured operation: a type, or a map with
a type and arguments. -/
def readOperation : Value → Except Fault FieldShape
  | .str type => .ok { type := type }
  | .map settings => do
      let args ← readArguments (Value.getD settings "args")
      match Assoc.get? settings "type" with
      | some type => return { args := args, type := type.text }
      | none => throw .missingSetting
  | _ => .error .noSuchMember

/-- The names of blocks that hold operations. -/
def operationBlocks : List Value := [.str "operation", .str "query", .str "mutation"]

/-- The lines of a configured field map. Configurations are asked for
once there is a field that needs them. -/
def renderConfigured (fields configs : Value) (m : Option Model) (block : Value) :
    Except Fault String := do
  discard block.key
  let entries ← fields.settings
  let configs ← if entries.isEmpty then pure [] else configs.settingsIfGiven
  if operationBlocks.contains block then
    let fields ← entries.mapM fun (key, v) => return (key, ← readOperation v)
    return renderOperations fields configs
  else
    return renderFields (entries.map fun (key, v) => (key, { type := v.text })) configs m

/-- A line with configured metadata. Without any it stays what it is. -/
def applyConfigured (line metadata : Value) : Except Fault Value := do
  let m := Metadata.ofSettings (← metadata.settingsIfGiven)
  return if m.isGiven then .str (applyMetadata line.text m) else line

end ModelSchema.Sdl
