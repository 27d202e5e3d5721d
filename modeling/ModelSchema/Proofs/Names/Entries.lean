/-
The names that entries take. Every entry takes its global id and the names
of the enum types that it is the first to use; a model takes two names for
each of its dynamic zones; and from the singular of its global id an entry
takes the names of its input types, a model those of its mutations too. So
the names of the outline of an entry follow from its global id, its enum
types and its zones alone (`names_componentOutline`, `names_modelOutline`).
-/
import ModelSchema.Proofs.Names.Derived
import ModelSchema.Proofs.Outline.Schema

namespace ModelSchema

-- ============================================================ global ids

namespace Naming

/-- A singular goes by the text of a name. -/
theorem singularOf_eq_ok {name : Value} {s : String} (h : singularOf name = .ok s) :
    s = toSingular name.text := by
  unfold singularOf at h
  split at h
  · cases h
    rfl
  · split at h
    · next huncountable =>
        cases h
        unfold toSingular
        rw [if_pos huncountable]
    · cases h

/-- A plural goes by the text of a name, if there is a singular. -/
theorem pluralOf_eq_ok {name plural : Value} {s : String} (hs : singularOf name = .ok s)
    (h : pluralOf name = .ok plural) : plural.text = toPlural name.text := by
  by_cases hstr : ∃ t, name = .str t
  · obtain ⟨t, rfl⟩ := hstr
    cases h
    rfl
  · have huncountable : isUncountable name.text = true := by
      unfold singularOf at hs
      split at hs
      · next t => exact absurd ⟨t, rfl⟩ hstr
      · split at hs
        · assumption
        · cases hs
    unfold pluralOf at h
    split at h
    · next t => exact absurd ⟨t, rfl⟩ hstr
    · rw [if_pos huncountable] at h
      cases h
      unfold toPlural
      rw [if_pos huncountable]
      rfl

end Naming

namespace Model

/-- The singular of a model's global id. -/
def singular (m : Model) : String := Naming.toSingular m.globalId.text

/-- The base of the names that are derived from a model. -/
def base (m : Model) : String := Naming.upperFirst m.singular

/-- A base does not start with a small letter. -/
theorem takeWhile_base (m : Model) : m.base.toList.takeWhile Char.isLower = [] :=
  Naming.takeWhile_upperFirst (Naming.smallStart_toSingular _)

/-- Models with the same base have the same singular. -/
theorem singular_of_base {m m' : Model} (h : m.base = m'.base) : m.singular = m'.singular :=
  Naming.upperFirst_inj (Naming.smallStart_toSingular _) (Naming.smallStart_toSingular _) h

/-- The query fields of a model. -/
def queryNames (m : Model) : List String :=
  if m.isSingleType then [m.singular]
  else [m.singular, Compiler.listName m.singular (Naming.toPlural m.globalId.text)]

/-- The mutation fields of a model. -/
def mutationNames (m : Model) : List String :=
  (Compiler.actions m).map (Compiler.mutationName m.singular)

/-- What the types of the mutations of a model are for. -/
def mutationRoles (m : Model) : List Role :=
  (Compiler.actions m).flatMap fun action =>
    (if m.isSingleType && action = .delete then [] else [.argument action]) ++ [.payload action]

/-- What the input types of an entry are for. -/
def inputRoles : List Role := [.create, .edit]

/-- The names that are derived from a model for these ends. -/
def derivedNames (m : Model) (roles : List Role) : List String :=
  roles.map fun role => role.name m.base

end Model

/-- The name of a declaration as it is written. -/
def Declaration.typeName (d : Declaration) : String := d.name.text

-- =========================================================== enum types

namespace Enums

/-- The names of enum types as they are written. -/
def names (types : List (Key × List Value)) : List String := types.map fun e => e.1.value.text

theorem typeName_declaration (types : List (Key × List Value)) :
    (types.map declaration).map Declaration.typeName = names types := by
  rw [List.map_map]
  rfl

theorem names_append (types more : List (Key × List Value)) :
    names (types ++ more) = names types ++ names more := List.map_append

theorem fresh_append (declared : Declared) (types more : List (Key × List Value)) :
    fresh declared (types ++ more) = fresh declared types ++ fresh (after declared types) more := by
  induction types generalizing declared with
  | nil => rfl
  | cons e types ih => rw [List.cons_append, fresh, fresh, ih, after, List.append_assoc]

theorem after_append (declared : Declared) (types more : List (Key × List Value)) :
    after declared (types ++ more) = after (after declared types) more := by
  induction types generalizing declared with
  | nil => rfl
  | cons e types ih => rw [List.cons_append, after, after, ih]

end Enums

namespace Compiler

open Enums (Declared)

variable {c : Compiler} {m : Model}

/-- The enum types that an entry uses; none if one of them has no name. -/
def usedEnums (c : Compiler) (m : Model) : List (Key × List Value) :=
  (c.enumTypes m).toOption.getD []

theorem usedEnums_of_eq_ok {types : List (Key × List Value)} (h : c.enumTypes m = .ok types) :
    c.usedEnums m = types := by
  unfold usedEnums
  rw [h]
  rfl

-- ======================================================= single entries

/-- The names of the two types of each zone of a model. -/
def zoneNames (c : Compiler) (m : Model) : List String :=
  (c.exposedOf .dynamicZone m).flatMap fun e =>
    [Attribute.zoneName m.globalId e.1, Attribute.zoneName m.globalId e.1 ++ "Input"]

theorem typeName_zonePair {r : Registry} {globalId : Value} {e : String × Attribute}
    {ds : List Declaration} (h : zonePair r globalId e = .ok ds) :
    ds.map Declaration.typeName
      = [Attribute.zoneName globalId e.1, Attribute.zoneName globalId e.1 ++ "Input"] := by
  obtain ⟨found, _, h⟩ := bind_eq_ok.1 h
  split at h
  · cases h
    rfl
  · obtain ⟨named, _, h⟩ := bind_eq_ok.1 h
    cases h
    rfl

theorem typeName_zoneDeclarations {ds : List Declaration} (h : c.zoneDeclarations m = .ok ds) :
    ds.map Declaration.typeName = c.zoneNames m := by
  obtain ⟨pairs, hpairs, rfl⟩ := map_eq_ok.1 h
  unfold zoneNames
  replace hpairs := mapM_eq_ok.1 hpairs
  generalize c.exposedOf .dynamicZone m = zones at hpairs ⊢
  clear h
  induction hpairs with
  | nil => rfl
  | cons hpair _ ih =>
      rw [List.flatten_cons, List.map_append, List.flatMap_cons, ih, typeName_zonePair hpair]

/-- The input types of an entry are derived from its singular. -/
theorem typeName_inputDeclarations {r : Registry} {visibility : Visibility} {allowIds : Bool}
    {ds : List Declaration}
    (h : Inputs.inputDeclarations r visibility m m.globalId allowIds = .ok ds) :
    ds.map Declaration.typeName = m.derivedNames Model.inputRoles := by
  obtain ⟨inputName, create, edit, hname, _, rfl⟩ := Inputs.inputDeclarations_eq_ok _ _ h
  obtain ⟨singular, hsingular, hname⟩ := bind_eq_ok.1 hname
  cases hname
  rw [Naming.singularOf_eq_ok hsingular]
  show [m.base ++ "Input", "edit" ++ (m.base ++ "Input")]
    = ["" ++ m.base ++ "Input", "edit" ++ m.base ++ "Input"]
  rw [String.empty_append, String.append_assoc]

/-- The names of what an entry declares of itself. -/
theorem typeName_entryOutline {object : Declaration} (h : c.objectDeclaration m = .ok object)
    (enums : List (Key × List Value)) {others : List Declaration} {names : List String}
    (hothers : others.map Declaration.typeName = names) (key : Key) :
    (entryOutline object enums others key).declarations.map Declaration.typeName
      = m.globalId.text :: Enums.names enums ++ names := by
  unfold entryOutline
  rw [List.map_append, List.map_cons, Enums.typeName_declaration, hothers,
    Declaration.typeName, name_objectDeclaration h]

/-- The names of the outline of a component. -/
theorem names_componentOutline {declared next : Declared} {o : Outline}
    (h : c.componentOutline declared m = .ok (o, next)) :
    o.declarations.map Declaration.typeName
        = m.globalId.text :: Enums.names (Enums.fresh declared (c.usedEnums m))
          ++ m.derivedNames Model.inputRoles
      ∧ next = Enums.after declared (c.usedEnums m) := by
  obtain ⟨object, types, inputs, key, hobject, htypes, hinputs, _, rfl, rfl⟩ :=
    componentOutline_eq_ok h
  rw [usedEnums_of_eq_ok htypes]
  exact ⟨typeName_entryOutline hobject _ (typeName_inputDeclarations hinputs) key, rfl⟩

-- ============================================================ operations

/-- Nothing is suppressed where nothing is contributed. -/
theorem isSuppressed_eq_false (hc : c.contributed = {}) (root name : String) :
    c.isSuppressed root name = false := by
  unfold isSuppressed Fragment.resolversFor
  rw [hc]
  rfl

/-- A model has all its mutations where nothing is contributed. -/
theorem mutations_eq (hc : c.contributed = {}) (singular : String) :
    c.mutations m singular = (actions m).map fun a => (mutationName singular a, a) := by
  unfold mutations
  rw [List.filter_eq_self]
  intro e _
  show (!c.isSuppressed "Mutation" e.1) = true
  rw [isSuppressed_eq_false hc]
  rfl

theorem actions_ne_nil (m : Model) : actions m ≠ [] := by
  unfold actions
  split <;> exact List.cons_ne_nil _ _

/-- The types of a mutation are derived from the singular of its model. -/
theorem typeName_mutationDeclarations (m : Model) (inputName : String) (action : Inputs.Action) :
    (Inputs.mutationDeclarations m m.singular inputName (mutationName m.singular action)
        action).map Declaration.typeName
      = m.derivedNames ((if m.isSingleType && action = .delete then [] else [.argument action])
          ++ [.payload action]) := by
  unfold Inputs.mutationDeclarations
  simp only [Inputs.isEmpty_argumentTypes]
  split <;> rfl

theorem key_queryFields {fields : List Declaration.Field}
    (hs : Naming.singularOf m.globalId = .ok m.singular)
    (h : c.queryFields m m.singular = .ok fields) :
    fields.map Declaration.Field.key = m.queryNames := by
  unfold queryFields at h
  unfold Model.queryNames
  split at h
  · next hsingle =>
      cases h
      rw [if_pos hsingle]
      rfl
  · next hsingle =>
      obtain ⟨plural, hplural, h⟩ := bind_eq_ok.1 h
      obtain ⟨args, _, h⟩ := bind_eq_ok.1 h
      cases h
      rw [if_neg hsingle, ← Naming.pluralOf_eq_ok hs hplural]
      rfl

/-- The names of the operations of a model, if nothing is contributed. -/
theorem names_operationsOutline (hc : c.contributed = {}) {o : Outline}
    (h : c.operationsOutline m = .ok o) :
    o.declarations.map Declaration.typeName = m.derivedNames (Model.inputRoles ++ m.mutationRoles)
      ∧ o.queries.map Declaration.Field.key = m.queryNames
      ∧ o.mutations.map Declaration.Field.key = m.mutationNames := by
  obtain ⟨singular, hsingular, h⟩ := bind_eq_ok.1 h
  obtain ⟨fields, hfields, h⟩ := bind_eq_ok.1 h
  obtain ⟨inputs, hinputs, h⟩ := bind_eq_ok.1 h
  cases h
  have hs : singular = m.singular := Naming.singularOf_eq_ok hsingular
  subst hs
  rw [mutations_eq hc] at hinputs ⊢
  have some : ((actions m).map fun a => (mutationName m.singular a, a)).isEmpty ≠ true := by
    rw [ne_eq, List.isEmpty_iff, List.map_eq_nil_iff]
    exact actions_ne_nil m
  unfold inputsOf at hinputs
  rw [if_neg some] at hinputs
  refine ⟨?_, ?_, ?_⟩
  · show (inputs ++ _).map _ = _
    rw [List.map_append, typeName_inputDeclarations hinputs, List.flatMap_map, List.map_flatMap,
      Model.derivedNames, Model.derivedNames, List.map_append, Model.mutationRoles,
      List.map_flatMap]
    refine congrArg (_ ++ ·) (List.flatMap_congr fun action _ => ?_)
    exact typeName_mutationDeclarations m _ action
  · show (fields.filter fun f => !c.isSuppressed "Query" f.key).map _ = _
    rw [List.filter_eq_self.2, key_queryFields hsingular hfields]
    intro f _
    rw [isSuppressed_eq_false hc]
    rfl
  · show (((actions m).map _).map _).map _ = _
    rw [List.map_map, List.map_map]
    rfl

/-- The names that a model takes besides its global id and its enum
types. -/
def modelNames (c : Compiler) (m : Model) : List String :=
  c.zoneNames m ++ if c.config.shadowCrud then
    m.derivedNames (Model.inputRoles ++ m.mutationRoles) else []

/-- The names of the outline of a model, if nothing is contributed. -/
theorem names_modelOutline (hc : c.contributed = {}) {declared next : Declared} {o : Outline}
    (h : c.modelOutline declared m = .ok (o, next)) :
    o.declarations.map Declaration.typeName
        = m.globalId.text :: Enums.names (Enums.fresh declared (c.usedEnums m)) ++ c.modelNames m
      ∧ next = Enums.after declared (c.usedEnums m) := by
  obtain ⟨own, hown, hcase⟩ := modelOutline_eq_ok h
  obtain ⟨object, types, zones, key, hobject, htypes, hzones, _, rfl, rfl⟩ :=
    ownOutline_eq_ok hown
  rw [usedEnums_of_eq_ok htypes]
  refine ⟨?_, rfl⟩
  have hnames := typeName_entryOutline hobject (Enums.fresh declared types)
    (typeName_zoneDeclarations hzones) key
  unfold modelNames
  rcases hcase with ⟨hshadow, rfl⟩ | ⟨operations, hshadow, hoperations, rfl⟩
  · rw [hshadow, hnames]
    simp
  · rw [hshadow]
    unfold Outline.merge
    rw [List.flatMap_cons, List.flatMap_singleton, List.map_append, hnames,
      (names_operationsOutline hc hoperations).1, if_pos rfl]
    simp

end Compiler

end ModelSchema
