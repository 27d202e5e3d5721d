/-
Enum types. The first attribute with the name of an enum type declares
it; later ones are only compared with it. A value that is no GraphQL name
is left out, and an enum that is left without values becomes a scalar.
-/
import ModelSchema.Compiler.Basic

namespace ModelSchema.Enums

/-- The enum types declared so far, with the texts of the values that each
was declared with. -/
abbrev Declared := List (Key × List String)

/-- Words that may not be values of an enum. -/
def reserved : List String := ["true", "false", "null"]

/-- A text without a line feed at its end. -/
def withoutLineFeed (s : String) : String :=
  if s.toList.getLast? = some '\n' then String.ofList s.toList.dropLast else s

/-- Whether a text is taken as a value of an enum: a GraphQL name, perhaps
with a line feed after it, that is not reserved. -/
def isUsable (s : String) : Bool :=
  Graphql.isName (withoutLineFeed s) && !reserved.contains s

/-- The texts of the values that an attribute declares. -/
def texts (values : List Value) : List String := values.map Value.text

/-- The values of an enum that are left out. -/
def skipped (values : List Value) : List Value := values.filter fun v => !isUsable v.text

/-- The values of an enum that are used. -/
def usable (values : List Value) : List String := (texts values).filter isUsable

/-- The definition of an enum type with these values. -/
def definition (name : Value) (values : List Value) : String :=
  let kept := usable values
  if kept.isEmpty then "scalar " ++ name.text
  else Sdl.renderBlock "enum" name.text (String.intercalate "\n" kept) ""

/-- What the definition of an enum type tells. -/
def definitionNotices (name : Value) (values : List Value) : List Notice :=
  (skipped values).map (.enumValueSkipped name)
    ++ if (usable values).isEmpty then [.enumWithoutValues name] else []

/-- The outcome of declaring one enum type: the types declared then, its
definition if this is the first one, and what there is to tell. -/
structure Outcome where
  declared : Declared
  definition : Option String
  notices : List Notice

/-- Declares an enum type. -/
def declare (declared : Declared) (key : Key) (values : List Value) : Outcome :=
  let name := key.value
  match Assoc.get? declared key with
  | some first =>
      { declared := declared
        definition := none
        notices :=
          if first = texts values then [] else [.enumAlreadyDeclared name first (texts values)] }
  | none =>
      { declared := Assoc.put key (texts values) declared
        definition := some (definition name values)
        notices := definitionNotices name values }

end ModelSchema.Enums
