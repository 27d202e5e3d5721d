/-
The operations of a model: its lookup and list query, and the mutations
that create, update and delete its entities, with the types of their
arguments and payloads. An operation is suppressed by the contributed
resolver `false` under its name.
-/
import ModelSchema.Compiler.Basic

namespace ModelSchema.Compiler

variable (c : Compiler)

/-- Whether an operation is suppressed. -/
def isSuppressed (root name : String) : Bool :=
  (Assoc.get? (c.contributed.resolversFor (.ofText root)) name).any fun e =>
    e.content = .given (.bool false)

/-- The contributed resolvers of a root type as configurations. -/
def rootConfigurations (root : String) : Sdl.Configurations :=
  (c.contributed.resolversFor (.ofText root)).map fun (name, e) => (name, e.content.toValue)

/-- The arguments of list queries. -/
def listArguments : Except Fault (List (String × String)) := do
  return (← c.config.listArguments.pairs).map fun (name, type) => (name.value.text, type.text)

/-- The name of the list query, which differs from that of the lookup. -/
def listName (singular plural : String) : String :=
  if plural = singular then singular ++ "List" else plural

/-- The queries of a model. A single type is not looked up. -/
def queries (m : Model) (singular : String) : Except Fault Sdl.FieldMap := do
  if m.isSingleType then return [(singular, { type := m.globalId.text })]
  let plural ← Naming.pluralOf m.globalId
  return Assoc.ofPairs
    [(singular, { args := [("id", "ID!")], type := m.globalId.text }),
      (listName singular plural.text,
        { args := ← c.listArguments, type := "[" ++ m.globalId.text ++ "]" })]

/-- The mutations that a model has. -/
def actions (m : Model) : List Inputs.Action :=
  if m.isSingleType then [.update, .delete] else [.create, .update, .delete]

/-- The name of a mutation. -/
def mutationName (singular : String) (action : Inputs.Action) : String :=
  action.text ++ Naming.upperFirst singular

/-- A mutation's field. Deleting a single type takes no argument. -/
def mutationShape (m : Model) (name : String) (action : Inputs.Action) : Sdl.FieldShape :=
  { args :=
      if m.isSingleType && action = .delete then []
      else [("input", Inputs.mutationInputName name)]
    type := Inputs.payloadName name }

/-- The operations of a model that are not suppressed, with the types of
their payloads. -/
structure Offered where
  queries : Sdl.FieldMap
  mutations : List (String × Inputs.Action)
  payloads : List String

/-- What a model offers. -/
def offered (m : Model) : Except Fault Offered := do
  let singular ← Naming.singularOf m.globalId
  let queries := (← c.queries m singular).filter fun (name, _) =>
    !c.isSuppressed "Query" name
  let mutations := ((actions m).map fun a => (mutationName singular a, a)).filter
    fun (name, _) => !c.isSuppressed "Mutation" name
  let payloads ← mutations.mapM fun (name, a) =>
    Inputs.payloadArguments m m.globalId name (.str a.text)
  return ⟨queries, mutations, payloads⟩

/-- The operations of a model as a fragment. -/
def operations (m : Model) : Except Fault Fragment := do
  let o ← c.offered m
  let inputs ←
    if o.mutations.isEmpty then pure []
    else do pure [← Inputs.inputModel c.registry c.visibility m m.globalId false]
  let fields := o.mutations.map fun (name, a) => (name, mutationShape m name a)
  return {
    definition := inputs ++ o.payloads
    objectTypes := o.mutations.map fun (name, _) => .ofText (Inputs.payloadName name)
    query :=
      if o.queries.isEmpty then []
      else [Sdl.renderOperations o.queries (c.rootConfigurations "Query")]
    mutation :=
      if fields.isEmpty then []
      else [Sdl.renderOperations fields (c.rootConfigurations "Mutation")] }

/-- A model after its operations have been made. -/
def modelAfterOperations (m : Model) : Model :=
  match c.offered m with
  | .ok o =>
      if o.mutations.isEmpty then m
      else Inputs.afterInputModel c.registry c.visibility m m.globalId
  | .error _ => m

end ModelSchema.Compiler
