/-
The fragments of components and models as outlines. Entries are outlined
one after another, and hand on which enum types are declared; a run of the
fragment of an entry renders its outline (`componentFragment_yields`,
`modelFragment_yields`), and a run of all of them renders the outlines of
all entries in order (`generated_yields`).
-/
import ModelSchema.Proofs.Outline.Operations
import ModelSchema.Proofs.Outline.Types

namespace ModelSchema.Compiler

open Enums (Declared)

variable (c : Compiler)

-- ======================================================= single entries

/-- What an entry declares of itself: its object type, the enum types that
it is the first to declare, and others. -/
def entryOutline (object : Declaration) (enums : List (Key × List Value))
    (others : List Declaration) (key : Key) : Outline :=
  { declarations := object :: enums.map Enums.declaration ++ others
    objectTypes := [key] }

/-- The outline of a component, and the enum types declared after it. -/
def componentOutline (declared : Declared) (m : Model) : Except Fault (Outline × Declared) := do
  let object ← c.objectDeclaration m
  let types ← c.enumTypes m
  let inputs ← Inputs.inputDeclarations c.registry c.visibility m m.globalId true
  let key ← m.globalId.key
  return (entryOutline object (Enums.fresh declared types) inputs key,
    Enums.after declared types)

/-- What a model declares of itself, and the enum types declared after
it. -/
def ownOutline (declared : Declared) (m : Model) : Except Fault (Outline × Declared) := do
  let zones ← c.zoneDeclarations m
  let object ← c.objectDeclaration m
  let types ← c.enumTypes m
  let key ← m.globalId.key
  return (entryOutline object (Enums.fresh declared types) zones key, Enums.after declared types)

/-- The outline of a model, with its operations if there are any, and the
enum types declared after it. -/
def modelOutline (declared : Declared) (m : Model) : Except Fault (Outline × Declared) := do
  let (own, after) ← c.ownOutline declared m
  if c.config.shadowCrud then
    return (Outline.merge [own, ← c.operationsOutline m], after)
  else return (own, after)

variable {c}

section

variable {declared next : Declared} {m : Model} {o : Outline}

theorem componentOutline_eq_ok (h : c.componentOutline declared m = .ok (o, next)) :
    ∃ object types inputs key, c.objectDeclaration m = .ok object ∧ c.enumTypes m = .ok types
      ∧ Inputs.inputDeclarations c.registry c.visibility m m.globalId true = .ok inputs
      ∧ m.globalId.key = .ok key
      ∧ o = entryOutline object (Enums.fresh declared types) inputs key
      ∧ next = Enums.after declared types := by
  obtain ⟨object, hobject, h⟩ := bind_eq_ok.1 h
  obtain ⟨types, htypes, h⟩ := bind_eq_ok.1 h
  obtain ⟨inputs, hinputs, h⟩ := bind_eq_ok.1 h
  obtain ⟨key, hkey, h⟩ := bind_eq_ok.1 h
  cases h
  exact ⟨object, types, inputs, key, hobject, htypes, hinputs, hkey, rfl, rfl⟩

theorem ownOutline_eq_ok (h : c.ownOutline declared m = .ok (o, next)) :
    ∃ object types zones key, c.objectDeclaration m = .ok object ∧ c.enumTypes m = .ok types
      ∧ c.zoneDeclarations m = .ok zones ∧ m.globalId.key = .ok key
      ∧ o = entryOutline object (Enums.fresh declared types) zones key
      ∧ next = Enums.after declared types := by
  obtain ⟨zones, hzones, h⟩ := bind_eq_ok.1 h
  obtain ⟨object, hobject, h⟩ := bind_eq_ok.1 h
  obtain ⟨types, htypes, h⟩ := bind_eq_ok.1 h
  obtain ⟨key, hkey, h⟩ := bind_eq_ok.1 h
  cases h
  exact ⟨object, types, zones, key, hobject, htypes, hzones, hkey, rfl, rfl⟩

theorem modelOutline_eq_ok (h : c.modelOutline declared m = .ok (o, next)) :
    ∃ own, c.ownOutline declared m = .ok (own, next)
      ∧ ((c.config.shadowCrud = false ∧ o = own)
        ∨ ∃ operations, c.config.shadowCrud = true ∧ c.operationsOutline m = .ok operations
          ∧ o = Outline.merge [own, operations]) := by
  obtain ⟨⟨own, after⟩, hown, h⟩ := bind_eq_ok.1 h
  cases hshadow : c.config.shadowCrud with
  | false =>
      simp only [hshadow] at h
      cases h
      exact ⟨_, hown, Or.inl ⟨rfl, rfl⟩⟩
  | true =>
      simp only [hshadow] at h
      obtain ⟨operations, hoperations, h⟩ := bind_eq_ok.1 h
      cases h
      exact ⟨own, hown, Or.inr ⟨operations, rfl, hoperations, rfl⟩⟩

end

/-- What an entry declares of itself is its outline. -/
theorem renders_entry {m : Model} {type : String} {object : Declaration}
    (htype : c.typeDefinition m = .ok type) (hobject : c.objectDeclaration m = .ok object)
    (enums : List (Key × List Value)) {texts : List String} {others : List Declaration}
    (hothers : Joined "\n\n" texts (others.map Declaration.text)) (key : Key)
    (resolver : SectionMap) :
    (entryOutline object enums others key).Renders
      { definition := type :: (enums.map fun e => (Enums.declaration e).text) ++ texts
        resolver := resolver
        objectTypes := [key] } := by
  rw [typeDefinition_eq, hobject] at htype
  cases htype
  refine ⟨?_, Joined.refl _ _, Joined.refl _ _, rfl⟩
  show Joined _ _ ((object :: enums.map Enums.declaration ++ others).map _)
  rw [List.map_append, List.map_cons, List.map_map]
  exact (Joined.refl _ _).append hothers

/-- A run of the fragment of a component renders its outline. -/
theorem componentFragment_yields {m : Model} {p q : Progress} {f : Fragment}
    (h : (c.componentFragment m).Yields p f q) :
    ∃ o, c.componentOutline p.declared m = .ok (o, q.declared) ∧ o.Renders f := by
  obtain ⟨type, _, inputs, key, p', htype, hquiet, henums, hinputs, hkey, rfl⟩ :=
    componentFragment_inv h
  obtain ⟨types, htypes, rfl, rfl⟩ := c.enums_yields henums
  rw [hquiet.declared]
  rw [Inputs.inputModel_eq] at hinputs
  obtain ⟨ds, hds, rfl⟩ := map_eq_ok.1 hinputs
  obtain ⟨object, hobject, -⟩ := map_eq_ok.1 ((c.typeDefinition_eq m).symm.trans htype)
  refine ⟨entryOutline object (Enums.fresh p.declared types) ds key, ?_, ?_⟩
  · exact bind_eq_ok.2 ⟨object, hobject, bind_eq_ok.2 ⟨types, htypes,
      bind_eq_ok.2 ⟨ds, hds, bind_eq_ok.2 ⟨key, hkey, rfl⟩⟩⟩⟩
  · obtain ⟨_, _, _, _, _, rfl⟩ := Inputs.inputDeclarations_eq_ok _ _ hds
    refine renders_entry htype hobject _ (Joined.single ?_) key []
    exact List.cons_ne_nil _ _

/-- A run of the fragment of a model renders its outline. -/
theorem modelFragment_yields {m : Model} {p q : Progress} {f : Fragment}
    (h : (c.modelFragment m).Yields p f q) :
    ∃ o, c.modelOutline p.declared m = .ok (o, q.declared) ∧ o.Renders f := by
  obtain ⟨zones, type, _, key, p', q', hzones, htype, hquiet, henums, hlast, hkey, hcase⟩ :=
    modelFragment_inv h
  obtain ⟨types, htypes, rfl, rfl⟩ := c.enums_yields henums
  have hafter := hlast.declared
  rw [hquiet.declared] at hafter hcase
  obtain ⟨ds, hds, hdefinitions⟩ := c.dynamicZones_eq_ok hzones
  obtain ⟨object, hobject, -⟩ := map_eq_ok.1 ((c.typeDefinition_eq m).symm.trans htype)
  have own : c.ownOutline p.declared m
      = .ok (entryOutline object (Enums.fresh p.declared types) ds key,
          Enums.after p.declared types) :=
    bind_eq_ok.2 ⟨ds, hds, bind_eq_ok.2 ⟨object, hobject, bind_eq_ok.2 ⟨types, htypes,
      bind_eq_ok.2 ⟨key, hkey, rfl⟩⟩⟩⟩
  have rendered := renders_entry htype hobject (Enums.fresh p.declared types)
    (Joined.refl "\n\n" (ds.map Declaration.text)) key zones.resolvers
  rw [← hdefinitions] at rendered
  unfold modelOutline
  rw [own, hafter]
  rcases hcase with ⟨hshadow, rfl⟩ | ⟨hshadow, operations, hoperations, rfl⟩
  · rw [hshadow]
    exact ⟨_, rfl, rendered⟩
  · obtain ⟨o, ho, hrenders⟩ := c.operations_eq_ok hoperations
    rw [hshadow]
    refine ⟨Outline.merge [_, o], ?_, Outline.Renders.merge
      (List.Forall₂.cons rendered (List.Forall₂.cons hrenders List.Forall₂.nil))⟩
    show (c.operationsOutline m >>= fun o => pure (Outline.merge [_, o], _)) = _
    rw [ho]
    rfl

-- ========================================================== all entries

/-- All entries of the registry, components first. -/
def entries (c : Compiler) : List Model :=
  c.registry.components.map Prod.snd ++ c.registry.models.map Prod.snd

/-- The outlines of entries one after another, and the enum types declared
in the end. -/
def outlinesFrom (outline : Declared → Model → Except Fault (Outline × Declared))
    (declared : Declared) : List Model → Except Fault (List Outline × Declared)
  | [] => .ok ([], declared)
  | m :: rest => do
      let (o, next) ← outline declared m
      let (os, last) ← outlinesFrom outline next rest
      return (o :: os, last)

/-- A run of fragments one after another renders the outlines one after
another. -/
theorem outlinesFrom_of_yields {outline : Declared → Model → Except Fault (Outline × Declared)}
    {fragment : Model → Work Fragment}
    (step : ∀ {m p f q}, (fragment m).Yields p f q →
      ∃ o, outline p.declared m = .ok (o, q.declared) ∧ o.Renders f)
    {ms : List Model} {p q : Progress} {fs : List Fragment}
    (h : (ms.mapM fragment).Yields p fs q) :
    ∃ os, outlinesFrom outline p.declared ms = .ok (os, q.declared)
      ∧ List.Forall₂ Outline.Renders os fs := by
  induction ms generalizing p fs with
  | nil =>
      rw [List.mapM_nil] at h
      obtain ⟨rfl, rfl⟩ := Work.yields_pure.1 h
      exact ⟨[], rfl, List.Forall₂.nil⟩
  | cons m ms ih =>
      rw [List.mapM_cons] at h
      obtain ⟨f, _, hhead, h⟩ := Work.yields_bind.1 h
      obtain ⟨fs, _, htail, h⟩ := Work.yields_bind.1 h
      obtain ⟨rfl, rfl⟩ := Work.yields_pure.1 h
      obtain ⟨o, ho, hrenders⟩ := step hhead
      obtain ⟨os, hos, hrest⟩ := ih htail
      refine ⟨o :: os, ?_, List.Forall₂.cons hrenders hrest⟩
      exact bind_eq_ok.2 ⟨_, ho, bind_eq_ok.2 ⟨_, hos, rfl⟩⟩

variable (c) in
/-- The outlines of all entries, components first. No enum type is
declared before. -/
def outlines : Except Fault (List Outline) := do
  let (components, declared) ←
    outlinesFrom c.componentOutline [] (c.registry.components.map Prod.snd)
  let (models, _) ← outlinesFrom c.modelOutline declared (c.registry.models.map Prod.snd)
  return components ++ models

/-- The fragments of all entries render their outlines. -/
theorem generated_yields {p q : Progress} {fs : List Fragment} (hp : p.declared = [])
    (h : c.generated.Yields p fs q) :
    ∃ os, c.outlines = .ok os ∧ List.Forall₂ Outline.Renders os fs := by
  obtain ⟨components, models, _, hcomponents, hmodels, rfl⟩ := generated_inv h
  obtain ⟨os, hos, hrenders⟩ := outlinesFrom_of_yields componentFragment_yields hcomponents
  obtain ⟨os', hos', hrenders'⟩ := outlinesFrom_of_yields modelFragment_yields hmodels
  rw [hp] at hos
  refine ⟨os ++ os', ?_, List.rel_append hrenders hrenders'⟩
  exact bind_eq_ok.2 ⟨_, hos, bind_eq_ok.2 ⟨_, hos', rfl⟩⟩

end ModelSchema.Compiler
