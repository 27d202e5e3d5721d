/-
What the compiler tells about its work besides its result: notices, each
with a level and a wording.
-/
import ModelSchema.Value.Text

namespace ModelSchema

/-- How much a notice weighs. -/
inductive Level where
  | debug | info | warning
deriving DecidableEq

/-- Which of the two maps of a fragment an entry is in. -/
inductive EntryMap where
  | type | resolver
deriving DecidableEq

/-- Something worth telling. -/
inductive Notice where
  | buildingComponent (uid globalId : Value)
  | buildingModel (name globalId : Value)
  | enumAlreadyDeclared (name : Value) (first later : List String)
  | enumValueSkipped (name value : Value)
  | enumWithoutValues (name : Value)
  | entryOverridden (map : EntryMap) (type : Value) (field : String)
  | schemaEmpty
  | schemaCompiled (objectTypes queries mutations : Nat)
  | unknownResolverType (type : Value)
  | unmatchedResolver (type field : String)
  | classRegistered (name : String) (globalId : Value)
deriving DecidableEq

namespace Notice

/-- The level of a notice. -/
def level : Notice → Level
  | .buildingComponent .. | .buildingModel .. | .entryOverridden ..
  | .classRegistered .. => .debug
  | .schemaCompiled .. => .info
  | _ => .warning

/-- Texts between quotes, as a list. -/
def textList (texts : List String) : String :=
  (Value.list (texts.map .str)).text

/-- A notice in words. -/
def message : Notice → String
  | .buildingComponent uid globalId =>
      s!"Building GraphQL types for component {uid.text} ({globalId.text})"
  | .buildingModel name globalId =>
      s!"Building GraphQL types for model {name.text} ({globalId.text})"
  | .enumAlreadyDeclared name first later =>
      s!"Enum {name.text} is already declared with values {textList first}, "
        ++ s!"ignoring values {textList later}"
  | .enumValueSkipped name value =>
      s!"Skipping enum value {value.quotedText} of {name.text}: not a valid GraphQL name"
  | .enumWithoutValues name =>
      s!"Enum {name.text} has no usable values, declaring it as a scalar"
  | .entryOverridden map type field =>
      (match map with | .type => "type" | .resolver => "resolver")
        ++ s!" entry {type.text}.{field} overridden by a later fragment"
  | .schemaEmpty => "The GraphQL schema has not been generated because it is empty"
  | .schemaCompiled objectTypes queries mutations =>
      s!"Compiled GraphQL schema: {objectTypes} object types, "
        ++ s!"{queries} query and {mutations} mutation entries"
  | .unknownResolverType type =>
      s!"Resolvers declared for unknown type {type.text}, skipping"
  | .unmatchedResolver type field =>
      s!"Resolver {type}.{field} has no matching field, skipping"
  | .classRegistered name globalId =>
      s!"Registered SQLAlchemy model {name} as {globalId.text}"

end Notice

end ModelSchema
