/-
The names of a whole document. Up to their order the type names of a
schema compiled from a registry alone are those that every schema reserves,
the global ids of all entries, the names of their enum types and of the
zones of models, and the names derived from singulars (`typeNames_perm`);
the fields of the root types are named by the models (`rootNames_eq`).
-/
import Mathlib.Data.List.Perm.Basic
import ModelSchema.Proofs.Names.Entries

namespace ModelSchema

namespace Compiler

open Enums (Declared)

variable (c : Compiler)

-- ==================================================== names of a registry

/-- All components. -/
def components : List Model := c.registry.components.map Prod.snd

/-- All models. -/
def models : List Model := c.registry.models.map Prod.snd

/-- Whether there are generated operations. -/
def hasOperations : Bool := c.config.shadowCrud && !c.models.isEmpty

/-- Whether an entry is named like the root of queries. -/
def isRoot (m : Model) : Bool := m.globalId = .str Morph.rootQuery

/-- Whether there is a member of the union of object types. -/
def hasMorph : Bool :=
  c.components.any (fun m => !isRoot m)
    || c.models.any fun m => c.config.shadowCrud || !isRoot m

/-- The names that a schema takes whatever its entries are named. -/
def reservedNames : List String :=
  Scalar.all.map Scalar.name ++ ["InputID"] ++ (if c.hasMorph then [Morph.unionName] else [])
    ++ if c.hasOperations then ["Query", "Mutation"] else []

/-- The global ids of all entries. -/
def globalIds : List String := (c.components ++ c.models).map fun m => m.globalId.text

/-- The names of the enum types of all entries, each once. -/
def enumNames : List String :=
  Enums.names (Enums.fresh [] ((c.components ++ c.models).flatMap c.usedEnums))

/-- The names of the types of the zones of all models. -/
def zoneTypeNames : List String := c.models.flatMap c.zoneNames

/-- The entries with derived names, each with what these are for. -/
def owners : List (Model × List Role) :=
  c.components.map (fun m => (m, Model.inputRoles))
    ++ if c.config.shadowCrud then
        c.models.map fun m => (m, Model.inputRoles ++ m.mutationRoles)
      else []

/-- The names that are derived from singulars. -/
def derivedNames : List String := c.owners.flatMap fun (m, roles) => m.derivedNames roles

/-- The names that are not derived. -/
def ownNames : List String := c.reservedNames ++ c.globalIds ++ c.enumNames ++ c.zoneTypeNames

/-- The query fields of all models. -/
def queryNames : List String :=
  if c.config.shadowCrud then c.models.flatMap Model.queryNames else []

/-- The mutation fields of all models. -/
def mutationNames : List String :=
  if c.config.shadowCrud then c.models.flatMap Model.mutationNames else []

variable {c}

-- ================================================================ the run

/-- If the outline of every entry takes its global id, its enum types and
some more names, those of a row of entries take all of these. -/
theorem typeNames_outlinesFrom
    {outline : Declared → Model → Except Fault (Outline × Declared)} {own : Model → List String}
    (step : ∀ {declared m o next}, outline declared m = .ok (o, next) →
      o.declarations.map Declaration.typeName
          = m.globalId.text :: Enums.names (Enums.fresh declared (c.usedEnums m)) ++ own m
        ∧ next = Enums.after declared (c.usedEnums m))
    {ms : List Model} {declared last : Declared} {os : List Outline}
    (h : outlinesFrom outline declared ms = .ok (os, last)) :
    ((os.flatMap Outline.declarations).map Declaration.typeName).Perm
        (ms.map (fun m => m.globalId.text)
          ++ Enums.names (Enums.fresh declared (ms.flatMap c.usedEnums)) ++ ms.flatMap own)
      ∧ last = Enums.after declared (ms.flatMap c.usedEnums) := by
  induction ms generalizing declared os with
  | nil =>
      cases h
      exact ⟨List.Perm.refl _, rfl⟩
  | cons m ms ih =>
      obtain ⟨⟨o, next⟩, ho, h⟩ := bind_eq_ok.1 h
      obtain ⟨⟨os', last'⟩, hos, h⟩ := bind_eq_ok.1 h
      cases h
      obtain ⟨hnames, rfl⟩ := step ho
      obtain ⟨hperm, hlast⟩ := ih hos
      refine ⟨?_, ?_⟩
      · rw [List.flatMap_cons, List.map_append, hnames, List.map_cons, List.flatMap_cons,
          List.flatMap_cons, Enums.fresh_append, Enums.names_append]
        rw [List.perm_iff_count] at hperm ⊢
        intro n
        have hcount := hperm n
        simp only [List.count_append, List.count_cons] at hcount ⊢
        omega
      · rw [hlast, List.flatMap_cons, Enums.after_append]

/-- What is read off the outline of every entry is read off a row of them,
one after another. -/
theorem flatMap_outlinesFrom
    {outline : Declared → Model → Except Fault (Outline × Declared)} {α : Type}
    {ms : List Model} {declared last : Declared} {os : List Outline}
    (h : outlinesFrom outline declared ms = .ok (os, last)) (part : Outline → List α)
    (own : Model → List α)
    (step : ∀ {declared m o next}, outline declared m = .ok (o, next) → part o = own m) :
    os.flatMap part = ms.flatMap own := by
  induction ms generalizing declared os with
  | nil =>
      cases h
      rfl
  | cons m ms ih =>
      obtain ⟨⟨o, next⟩, ho, h⟩ := bind_eq_ok.1 h
      obtain ⟨⟨os', last'⟩, hos, h⟩ := bind_eq_ok.1 h
      cases h
      rw [List.flatMap_cons, List.flatMap_cons, step ho, ih hos]

/-- Up to their order, the type names of all entries. -/
theorem typeNames_outlines (hc : c.contributed = {}) {os : List Outline}
    (h : c.outlines = .ok os) :
    ((os.flatMap Outline.declarations).map Declaration.typeName).Perm
      (c.globalIds ++ c.enumNames ++ c.zoneTypeNames ++ c.derivedNames) := by
  obtain ⟨⟨components, declared⟩, hcomponents, h⟩ := bind_eq_ok.1 h
  obtain ⟨⟨models, last⟩, hmodels, h⟩ := bind_eq_ok.1 h
  cases h
  obtain ⟨hperm, hdeclared⟩ := typeNames_outlinesFrom names_componentOutline hcomponents
  obtain ⟨hperm', _⟩ := typeNames_outlinesFrom (names_modelOutline hc) hmodels
  have hzones : (c.models.flatMap c.modelNames).Perm (c.zoneTypeNames
      ++ c.models.flatMap fun m => if c.config.shadowCrud then
        m.derivedNames (Model.inputRoles ++ m.mutationRoles) else []) :=
    (List.flatMap_append_perm c.models _ _).symm
  have hderived : c.derivedNames = c.components.flatMap (·.derivedNames Model.inputRoles)
      ++ c.models.flatMap fun m => if c.config.shadowCrud then
        m.derivedNames (Model.inputRoles ++ m.mutationRoles) else [] := by
    unfold derivedNames owners
    cases c.config.shadowCrud with
    | true => simp [List.flatMap_append, List.flatMap_map]
    | false => simp [List.flatMap_map]
  rw [hdeclared] at hperm'
  unfold globalIds enumNames
  rw [List.flatMap_append, List.map_append, List.flatMap_append, Enums.fresh_append,
    Enums.names_append, List.map_append, hderived]
  rw [List.perm_iff_count] at hperm hperm' hzones ⊢
  intro n
  have hcount := hperm n
  have hcount' := hperm' n
  have hcount'' := hzones n
  unfold Compiler.components Compiler.models at *
  simp only [List.count_append] at hcount hcount' hcount'' ⊢
  omega

-- ======================================================== root fields

/-- A component has no root fields. -/
theorem rootFields_componentOutline {declared next : Declared} {m : Model} {o : Outline}
    (h : c.componentOutline declared m = .ok (o, next)) : o.queries = [] ∧ o.mutations = [] := by
  obtain ⟨_, _, _, _, _, _, _, _, rfl, _⟩ := componentOutline_eq_ok h
  exact ⟨rfl, rfl⟩

/-- The root fields of a model are those of its operations. -/
theorem rootFields_modelOutline (hc : c.contributed = {}) {declared next : Declared} {m : Model}
    {o : Outline} (h : c.modelOutline declared m = .ok (o, next)) :
    o.queries.map Declaration.Field.key = (if c.config.shadowCrud then m.queryNames else [])
      ∧ o.mutations.map Declaration.Field.key
        = if c.config.shadowCrud then m.mutationNames else [] := by
  obtain ⟨own, hown, hcase⟩ := modelOutline_eq_ok h
  obtain ⟨_, _, _, _, _, _, _, _, rfl, _⟩ := ownOutline_eq_ok hown
  rcases hcase with ⟨hshadow, rfl⟩ | ⟨operations, hshadow, hoperations, rfl⟩
  · rw [hshadow]
    exact ⟨rfl, rfl⟩
  · obtain ⟨_, hqueries, hmutations⟩ := names_operationsOutline hc hoperations
    rw [hshadow]
    unfold Outline.merge
    simp only [List.flatMap_cons, List.flatMap_nil, List.append_nil, List.map_append, hqueries,
      hmutations]
    exact ⟨rfl, rfl⟩

/-- The fields of the root types are named by the models. -/
theorem rootNames_eq (hc : c.contributed = {}) {os : List Outline} (h : c.outlines = .ok os) :
    (os.flatMap Outline.queries).map Declaration.Field.key = c.queryNames
      ∧ (os.flatMap Outline.mutations).map Declaration.Field.key = c.mutationNames := by
  obtain ⟨⟨components, declared⟩, hcomponents, h⟩ := bind_eq_ok.1 h
  obtain ⟨⟨models, last⟩, hmodels, h⟩ := bind_eq_ok.1 h
  cases h
  have both : ∀ (part : Outline → List Declaration.Field) (own : Model → List String),
      (∀ {declared m o next}, c.componentOutline declared m = .ok (o, next) → part o = []) →
      (∀ {declared m o next}, c.modelOutline declared m = .ok (o, next) →
        (part o).map Declaration.Field.key = if c.config.shadowCrud then own m else []) →
      ((components ++ models).flatMap part).map Declaration.Field.key
        = if c.config.shadowCrud then c.models.flatMap own else [] := by
    intro part own hcomponent hmodel
    have none := flatMap_outlinesFrom hcomponents part (fun _ => []) hcomponent
    have some := flatMap_outlinesFrom hmodels (fun o => (part o).map Declaration.Field.key)
      (fun m => if c.config.shadowCrud then own m else []) hmodel
    rw [List.flatMap_append, none, List.map_append, List.map_flatMap, List.map_flatMap, some]
    unfold Compiler.models
    split <;> simp
  exact ⟨both Outline.queries Model.queryNames (fun h => (rootFields_componentOutline h).1)
      fun h => (rootFields_modelOutline hc h).1,
    both Outline.mutations Model.mutationNames (fun h => (rootFields_componentOutline h).2)
      fun h => (rootFields_modelOutline hc h).2⟩

-- ============================================ the union of object types

/-- The object types that an outline tells are all named like the root of
queries. -/
def Rooted (o : Outline) : Prop := ∀ k ∈ o.objectTypes, (Key.ofText Morph.rootQuery == k) = true

theorem isRoot_iff_of_key {m : Model} {key : Key} (h : m.globalId.key = .ok key) :
    (Key.ofText Morph.rootQuery == key) = true ↔ isRoot m = true := by
  unfold isRoot
  rw [decide_eq_true_eq, ← Value.value_of_key h, ← Value.sameName_str_iff, Key.beq_iff]
  exact eq_comm

theorem rooted_entryOutline_iff {m : Model} (object : Declaration)
    (enums : List (Key × List Value)) (others : List Declaration) {key : Key}
    (h : m.globalId.key = .ok key) :
    Rooted (entryOutline object enums others key) ↔ isRoot m = true := by
  rw [← isRoot_iff_of_key h]
  exact List.forall_mem_singleton

/-- A payload type is not the root of queries. -/
theorem ofText_payloadName (base : String) (action : Inputs.Action) :
    (Key.ofText Morph.rootQuery == Key.ofText ((Role.payload action).name base)) = false := by
  rw [Key.ofText_beq, beq_eq_false_iff_ne]
  intro h
  have hlast := congrArg (fun s : String => s.toList.getLast?) h
  unfold Role.name at hlast
  simp only [String.toList_append, Role.getLast_ending] at hlast
  change "Query".toList.getLast? = "Payload".toList.getLast? at hlast
  exact absurd hlast (by decide)

/-- The operations of a model tell the payload types of its mutations. -/
theorem payload_mem_objectTypes (hc : c.contributed = {}) {m : Model} {o : Outline}
    (h : c.operationsOutline m = .ok o) :
    ∃ action, Key.ofText ((Role.payload action).name m.base) ∈ o.objectTypes := by
  obtain ⟨singular, hsingular, h⟩ := bind_eq_ok.1 h
  obtain ⟨_, _, h⟩ := bind_eq_ok.1 h
  obtain ⟨_, _, h⟩ := bind_eq_ok.1 h
  cases h
  have hs : singular = m.singular := Naming.singularOf_eq_ok hsingular
  subst hs
  obtain ⟨action, haction⟩ := List.exists_mem_of_ne_nil _ (actions_ne_nil m)
  refine ⟨action, List.mem_map.2 ⟨(mutationName m.singular action, action), ?_, rfl⟩⟩
  rw [mutations_eq hc]
  exact List.mem_map.2 ⟨action, haction, rfl⟩

theorem rooted_modelOutline_iff (hc : c.contributed = {}) {declared next : Declared} {m : Model}
    {o : Outline} (h : c.modelOutline declared m = .ok (o, next)) :
    Rooted o ↔ (c.config.shadowCrud || !isRoot m) = false := by
  obtain ⟨own, hown, hcase⟩ := modelOutline_eq_ok h
  obtain ⟨object, types, zones, key, _, _, _, hkey, rfl, _⟩ := ownOutline_eq_ok hown
  rcases hcase with ⟨hshadow, rfl⟩ | ⟨operations, hshadow, hoperations, rfl⟩
  · rw [hshadow, rooted_entryOutline_iff object _ zones hkey]
    simp
  · rw [hshadow]
    refine ⟨fun hrooted => ?_, fun h => (by cases h)⟩
    obtain ⟨action, hmem⟩ := payload_mem_objectTypes hc hoperations
    have hroot := (Morph.forall_uniqueKeys_iff _).1 hrooted _
      (List.mem_flatMap.2 ⟨operations, List.mem_cons_of_mem _ List.mem_cons_self, hmem⟩)
    rw [ofText_payloadName] at hroot
    cases hroot

/-- What holds of the outlines of a row of entries holds of each of them. -/
theorem forall_outlinesFrom_iff
    {outline : Declared → Model → Except Fault (Outline × Declared)}
    {ms : List Model} {declared last : Declared} {os : List Outline}
    (h : outlinesFrom outline declared ms = .ok (os, last)) (P : Outline → Prop)
    (Q : Model → Prop)
    (step : ∀ {declared m o next}, outline declared m = .ok (o, next) → (P o ↔ Q m)) :
    (∀ o ∈ os, P o) ↔ ∀ m ∈ ms, Q m := by
  induction ms generalizing declared os with
  | nil =>
      cases h
      exact ⟨fun _ m hm => (by cases hm), fun _ o ho => (by cases ho)⟩
  | cons m ms ih =>
      obtain ⟨⟨o, next⟩, ho, h⟩ := bind_eq_ok.1 h
      obtain ⟨⟨os', last'⟩, hos, h⟩ := bind_eq_ok.1 h
      cases h
      rw [List.forall_mem_cons, List.forall_mem_cons, step ho, ih hos]

/-- The union of object types is declared if it has a member. -/
theorem morphMembers_eq_nil_iff (hc : c.contributed = {}) {os : List Outline}
    (h : c.outlines = .ok os) : (Outline.merge os).morphMembers = [] ↔ c.hasMorph = false := by
  have hrooted : (Outline.merge os).morphMembers = [] ↔ ∀ o ∈ os, Rooted o := by
    unfold Outline.morphMembers
    rw [Morph.uniqueKeys_eq_nil_iff]
    show (∀ k ∈ Morph.uniqueKeys _, _) ↔ _
    rw [Morph.forall_uniqueKeys_iff]
    constructor
    · exact fun hall o ho k hk => hall k (List.mem_flatMap.2 ⟨o, ho, hk⟩)
    · intro hall k hk
      obtain ⟨o, ho, hk⟩ := List.mem_flatMap.1 hk
      exact hall o ho k hk
  obtain ⟨⟨components, declared⟩, hcomponents, h⟩ := bind_eq_ok.1 h
  obtain ⟨⟨models, last⟩, hmodels, h⟩ := bind_eq_ok.1 h
  cases h
  have first := forall_outlinesFrom_iff hcomponents Rooted (fun m => isRoot m = true)
    fun ho => by
      obtain ⟨object, types, inputs, key, _, _, _, hkey, rfl, _⟩ := componentOutline_eq_ok ho
      exact rooted_entryOutline_iff object _ inputs hkey
  have second := forall_outlinesFrom_iff hmodels Rooted
    (fun m => (c.config.shadowCrud || !isRoot m) = false) (rooted_modelOutline_iff hc)
  rw [hrooted, List.forall_mem_append, first, second]
  unfold hasMorph Compiler.components Compiler.models
  rw [Bool.or_eq_false_iff, List.any_eq_false, List.any_eq_false]
  simp

-- ========================================================== the document

/-- A root type is declared if it has fields. -/
theorem typeName_rootDeclaration (name : String) (fields : List Declaration.Field) :
    (Outline.rootDeclaration name fields).map Declaration.typeName
      = if (fields.map Declaration.Field.key).isEmpty then [] else [name] := by
  unfold Outline.rootDeclaration
  cases fields <;> rfl

/-- There are root fields exactly if there are operations. -/
theorem isEmpty_rootNames (own : Model → List String) (hown : ∀ m, own m ≠ []) :
    (if c.config.shadowCrud then c.models.flatMap own else []).isEmpty = !c.hasOperations := by
  unfold hasOperations
  cases c.config.shadowCrud with
  | false => rfl
  | true =>
      cases c.models with
      | nil => rfl
      | cons m ms =>
          simp [hown m]

/-- Up to their order, the type names of a schema compiled without
contributions. -/
theorem typeNames_perm (hc : c.contributed = {}) {os : List Outline} (h : c.outlines = .ok os) :
    ((Outline.merge os).schema.map Declaration.typeName).Perm (c.ownNames ++ c.derivedNames) := by
  have hnames := typeNames_outlines hc h
  obtain ⟨hqueries, hmutations⟩ := rootNames_eq hc h
  have morph : (Outline.merge os).morphDeclaration.map Declaration.typeName
      = if c.hasMorph then [Morph.unionName] else [] := by
    unfold Outline.morphDeclaration
    by_cases hnil : (Outline.merge os).morphMembers = []
    · rw [hnil, (morphMembers_eq_nil_iff hc h).1 hnil]
      rfl
    · have hmorph : c.hasMorph = true :=
        (Bool.not_eq_false _).mp fun hno => hnil ((morphMembers_eq_nil_iff hc h).2 hno)
      rw [if_neg (fun hempty => hnil (List.isEmpty_iff.1 hempty)), hmorph]
      rfl
  have roots : ∀ (name : String) (fields : List Declaration.Field) (own : Model → List String),
      fields.map Declaration.Field.key
        = (if c.config.shadowCrud then c.models.flatMap own else []) →
      (∀ m, own m ≠ []) →
      (Outline.rootDeclaration name fields).map Declaration.typeName
        = if c.hasOperations then [name] else [] := by
    intro name fields own hkeys hown
    rw [typeName_rootDeclaration, hkeys, isEmpty_rootNames own hown]
    cases c.hasOperations <;> rfl
  have query := roots "Query" _ Model.queryNames hqueries fun m => by
    unfold Model.queryNames
    split <;> exact List.cons_ne_nil _ _
  have mutation := roots "Mutation" _ Model.mutationNames hmutations fun m => by
    unfold Model.mutationNames
    rw [ne_eq, List.map_eq_nil_iff]
    exact actions_ne_nil m
  have scalars : Outline.scalarDeclarations.map Declaration.typeName = Scalar.all.map Scalar.name :=
    rfl
  have both : (if c.hasOperations then ["Query", "Mutation"] else [])
      = (if c.hasOperations then ["Query"] else [])
        ++ if c.hasOperations then ["Mutation"] else [] := by
    cases c.hasOperations <;> rfl
  unfold Outline.schema Outline.types ownNames reservedNames
  simp only [List.map_append, List.map_cons, morph, scalars]
  rw [show (Outline.merge os).queries = os.flatMap Outline.queries from rfl, query,
    show (Outline.merge os).mutations = os.flatMap Outline.mutations from rfl, mutation,
    show (Outline.merge os).declarations = os.flatMap Outline.declarations from rfl]
  rw [List.perm_iff_count] at hnames ⊢
  intro n
  have hcount := hnames n
  have input : Outline.inputIdDeclaration.typeName = "InputID" := rfl
  rw [input]
  simp only [both, List.count_append, List.count_cons, List.count_nil] at hcount ⊢
  omega

end Compiler

end ModelSchema
