/-
Compiling a registry: one fragment for each component and each model, all
of them merged with the contributions, and the whole assembled into one
text. Steps tell notices as they go, and what they have told stays told
when a later step fails; so do the enum types declared.
-/
import ModelSchema.Compiler.Enums
import ModelSchema.Compiler.Operations
import ModelSchema.Compiler.Zones
import ModelSchema.Scalar.Table

namespace ModelSchema

/-- What has been done so far. -/
structure Progress where
  declared : Enums.Declared := []
  notices : List Notice := []

/-- A step of the compiler, which may fail and may tell. -/
abbrev Work := ExceptT Fault (StateM Progress)

namespace Work

/-- Tells notices. -/
def tell (ns : List Notice) : Work Unit :=
  modify fun p => { p with notices := p.notices ++ ns }

/-- A step that neither tells nor declares. -/
def lift {α : Type} (x : Except Fault α) : Work α :=
  match x with
  | .ok v => pure v
  | .error f => throw f

end Work

/-- A compiled schema. -/
structure CompiledSchema where
  sdl : String
  fragment : Fragment
  morph : List Key
  resolvers : SectionMap
deriving Inhabited

/-- Whether there is nothing to query. -/
def CompiledSchema.isEmpty (s : CompiledSchema) : Bool := s.fragment.query.isEmpty

namespace Compiler

variable (c : Compiler)

-- ======================================================== one model

/-- Declares an enum type and gives its definition, if it is the first of
its name. -/
def declareEnum (name : Value) (values : List Value) : Work (Option String) := do
  let key ← Work.lift name.key
  let outcome := Enums.declare (← get).declared key values
  modify fun p => { p with declared := outcome.declared }
  Work.tell outcome.notices
  return outcome.definition

/-- The enum types that a model is the first to declare. -/
def enums (m : Model) : Work (List String) := do
  let found ← ((c.exposed m).filter fun (_, a) => a.kind = .enumeration).mapM
    fun (name, a) => do
      let typeName ← Work.lift (a.enumTypeName m.globalId name)
      declareEnum typeName a.enum
  return found.filterMap id

/-- The fragment of a component. -/
def componentFragment (m : Model) : Work Fragment := do
  Work.tell [.buildingComponent m.uid m.globalId]
  let type ← Work.lift (c.typeDefinition m)
  let enums ← c.enums m
  let inputs ← Work.lift (Inputs.inputModel c.registry c.visibility m m.globalId true)
  return { definition := type :: enums ++ [inputs]
           objectTypes := [← Work.lift m.globalId.key] }

/-- The fragment of a model. -/
def modelFragment (m : Model) : Work Fragment := do
  Work.tell [.buildingModel m.name m.globalId]
  let zones ← Work.lift (c.dynamicZones m)
  let type ← Work.lift (c.typeDefinition m)
  let enums ← c.enums m
  let own : Fragment :=
    { definition := type :: enums ++ zones.definitions
      resolver := zones.resolvers
      objectTypes := [← Work.lift m.globalId.key] }
  if !c.config.shadowCrud then return own
  let both := [own, ← Work.lift (c.operations m)]
  Work.tell (Fragment.mergeNotices both)
  return Fragment.merge both

/-- A model after its fragment has been made. An enum type whose name is a
list ends the fragment, so no more than the object type leaves a mark. -/
def modelAfterFragment (m : Model) : Model :=
  match c.dynamicZones m with
  | .ok _ => c.modelAfterType m
  | .error _ => m

-- ======================================================== the whole

/-- A merged fragment as one text, with the definition of the union of its
object types. -/
def assemble (f : Fragment) (union : String) : String :=
  let root := fun (name : String) (lines : List String) =>
    if lines.isEmpty then []
    else [Sdl.renderBlock "type" name (String.intercalate "\n" lines) ""]
  String.intercalate "\n\n"
      ([Scalar.declarations, Inputs.inputId] ++ f.definition
        ++ (if union = "" then [] else [union])
        ++ root "Query" f.query ++ root "Mutation" f.mutation)
    ++ "\n"

/-- The schema of a merged fragment. -/
def finish (f : Fragment) : Except Fault CompiledSchema := do
  let union ← Morph.definition f.morphMembers
  return {
    sdl := assemble f union
    fragment := f
    morph := f.morphMembers
    resolvers := Assoc.putAll f.resolver (Fragment.morphResolvers f.morphMembers) }

/-- What a finished schema tells. -/
def finishNotice (s : CompiledSchema) : Notice :=
  if s.isEmpty then .schemaEmpty
  else .schemaCompiled s.fragment.objectTypes.length s.fragment.query.length
    s.fragment.mutation.length

/-- The fragments of all components and all models. -/
def generated : Work (List Fragment) := do
  let components ← (c.registry.components.map Prod.snd).mapM c.componentFragment
  let models ← (c.registry.models.map Prod.snd).mapM c.modelFragment
  return components ++ models

/-- Compiles the registry. No enum type is declared before. -/
def build : Work CompiledSchema := do
  modify fun p => { p with declared := [] }
  let all := (← c.generated) ++ [c.contributed]
  Work.tell (Fragment.mergeNotices all)
  let schema ← Work.lift (finish (Fragment.merge all))
  Work.tell [finishNotice schema]
  return schema

/-- Whether a step fails at the start. -/
def fails {α : Type} (work : Work α) : Bool := !(work.run.run {}).1.toBool

/-- The compiler after the registry has been compiled. An entry that is
compiled as a whole stays as it is; the first one that is not stays as its
fragment has left it. -/
def afterBuild : Compiler :=
  match (c.registry.components.map Prod.snd).find? fun m => fails (c.componentFragment m) with
  | some m => c.replacing m (c.modelAfterType m)
  | none =>
      match (c.registry.models.map Prod.snd).find? fun m => fails (c.modelFragment m) with
      | some m => c.replacing m (c.modelAfterFragment m)
      | none => c

end Compiler

end ModelSchema
