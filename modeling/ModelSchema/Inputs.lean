/-
Input types of mutations. A model has a type for creating and one for
updating; each mutation has a type for its argument, and a payload type
for its result. A single type is not looked up, so nothing says where.
-/
import ModelSchema.Sdl.Field
import ModelSchema.TypeRef
import ModelSchema.Visibility

namespace ModelSchema.Inputs

/-- The input type that names an entity. -/
def inputId : String := "input InputID \x7b\n  id: ID!\n\x7d"

/-- The line of a type that would be without fields. -/
def placeholder : String := "_: String"

/-- The payload type of a mutation. -/
def payloadName (mutation : String) : String := mutation ++ "Payload"

/-- The argument type of a mutation. -/
def mutationInputName (mutation : String) : String := mutation ++ "Input"

variable (r : Registry) (visibility : Visibility)

/-- The attributes that are exposed: not private, and enabled. -/
def exposed (m : Model) : List (String × Attribute) :=
  m.attributes.filter fun (name, a) => !a.hidden && visibility.isEnabled m name

/-- The fields of exposed attributes, each with its type. -/
def fields (m : Model) (mode : Mode) : Except Fault Sdl.FieldMap :=
  (exposed visibility m).mapM fun (name, a) => do
    return (name, { type := (← a.typeRef r m.globalId name mode).text })

/-- The attributes of a model after the types of the exposed ones have been
asked for, one after another up to the first that has none. -/
def attributesAfter (m : Model) (mode : Mode) :
    List (String × Attribute) → List (String × Attribute)
  | [] => []
  | (name, a) :: rest =>
      if a.hidden || !visibility.isEnabled m name then
        (name, a) :: attributesAfter m mode rest
      else
        match a.typeRef r m.globalId name mode with
        | .ok _ => (name, a.afterRef mode) :: attributesAfter m mode rest
        | .error _ => (name, a) :: rest

/-- A model after its fields have been asked for. -/
def afterFields (m : Model) (mode : Mode) : Model :=
  { m with attributes := attributesAfter r visibility m mode m.attributes }

/-- A model after its input types have been made. Creating alone leaves a
mark. -/
def afterInputModel (m : Model) (name : Value) : Model :=
  match Naming.inputNameOf name with
  | .ok _ => afterFields r visibility m .write
  | .error _ => m

/-- The two input types of a model. With identifiers allowed, entities can
be updated in place, by an `id` that comes first. -/
def inputModel (m : Model) (name : Value) (allowIds : Bool) : Except Fault String := do
  let inputName ← Naming.inputNameOf name
  let (createBody, editBody) ←
    if (exposed visibility m).isEmpty then
      pure (placeholder, if allowIds then "id: ID" else placeholder)
    else do
      let create ← fields r visibility m .write
      let edit ← fields r visibility (afterInputModel r visibility m name) .update
      let edit :=
        if allowIds then Assoc.putAll [("id", { type := "ID" })] edit else edit
      pure (Sdl.renderFields create [] none, Sdl.renderFields edit [] none)
  return String.intercalate "\n\n"
    [Sdl.renderBlock "input" inputName createBody "",
      Sdl.renderBlock "input" ("edit" ++ inputName) editBody ""]

/-- What a mutation does. -/
inductive Action where
  | create | update | delete
deriving DecidableEq

/-- The word for an action. -/
def Action.text : Action → String
  | .create => "create"
  | .update => "update"
  | .delete => "delete"

/-- The action of a word. -/
def Action.ofWord? (word : Value) : Option Action :=
  if word = .str "create" then some .create
  else if word = .str "update" then some .update
  else if word = .str "delete" then some .delete
  else none

/-- The argument lines of a mutation, none if it takes no argument. -/
def argumentLines? (m : Model) (inputName : String) : Action → Option String
  | .create => some s!"data: {inputName}"
  | .update =>
      some ((if m.isSingleType then "" else "where: InputID\n") ++ s!"data: edit{inputName}")
  | .delete => if m.isSingleType then none else some "where: InputID"

/-- The argument and payload types of a mutation. -/
def payloadArguments (m : Model) (name : Value) (mutation : String) (action : Value) :
    Except Fault String := do
  let singular ← Naming.singularOf name
  let inputName ← Naming.inputNameOf name
  let payload :=
    Sdl.renderBlock "type" (payloadName mutation) (singular ++ ": " ++ m.globalId.text) ""
  match Action.ofWord? action with
  | none => throw (.unsupportedAction action m.globalId)
  | some action =>
      match argumentLines? m inputName action with
      | none => return payload
      | some args =>
          return String.intercalate "\n\n"
            [Sdl.renderBlock "input" (mutationInputName mutation) args "", payload]

end ModelSchema.Inputs
