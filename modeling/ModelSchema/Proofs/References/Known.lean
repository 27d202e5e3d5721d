/-
What the outlines of entries refer to. A reference is known if it names a
standard scalar or something that the schema declares; with the names of
all entries known (`Compiler.Named`), everything that a component or a
model refers to is known but the zones of a component.
-/
import ModelSchema.Proofs.References.Declared
import ModelSchema.Proofs.References.Origins

namespace ModelSchema

open Declaration (Field)

variable {c : Compiler} {K : Value → Prop} {m : Model}

-- ========================================================= typed fields

namespace Inputs

/-- A typed field is an exposed attribute with the type it stands for. -/
theorem mem_fieldTypes {r : Registry} {visibility : Visibility} {mode : Mode}
    {types : List (String × TypeRef)} (h : fieldTypes r visibility m mode = .ok types)
    {e : String × TypeRef} (he : e ∈ types) :
    ∃ a, (e.1, a) ∈ exposed visibility m ∧ a.typeRef r m.globalId e.1 mode = .ok e.2 := by
  obtain ⟨⟨name, a⟩, ha, h⟩ := mem_of_mem_mapM h he
  obtain ⟨t, ht, h⟩ := bind_eq_ok.1 h
  cases h
  exact ⟨a, ha, ht⟩

/-- Every exposed attribute has a typed field. -/
theorem exists_mem_fieldTypes {r : Registry} {visibility : Visibility} {mode : Mode}
    {types : List (String × TypeRef)} (h : fieldTypes r visibility m mode = .ok types)
    {name : String} {a : Attribute} (ha : (name, a) ∈ exposed visibility m) :
    ∃ t, (name, t) ∈ types ∧ a.typeRef r m.globalId name mode = .ok t := by
  obtain ⟨e, he, h⟩ := mem_of_mapM_eq_ok h ha
  obtain ⟨t, ht, h⟩ := bind_eq_ok.1 h
  cases h
  exact ⟨t, he, ht⟩

end Inputs

-- ============================================================ one entry

/-- The zones of an entry are known. -/
def Compiler.ZonesNamed (c : Compiler) (K : Value → Prop) (m : Model) : Prop :=
  ∀ e ∈ c.exposedOf .dynamicZone m, ZoneNamed K m.globalId e.1

/-- Typed fields refer to known types. -/
def KnownTypes (K : Value → Prop) (types : List (String × TypeRef)) : Prop :=
  ∀ e ∈ types, K e.2.base

/-- A declaration refers to known types. -/
def Declaration.Known (K : Value → Prop) (d : Declaration) : Prop := ∀ n ∈ d.references, K n

/-- A type of plain fields refers to what its fields refer to. -/
theorem KnownTypes.input {types : List (String × TypeRef)} (h : KnownTypes K types)
    (name : Value) : Declaration.Known K ⟨name, .input (types.map Inputs.plainField)⟩ := by
  intro n hn
  rcases List.mem_append.1 hn with hn | hn
  · obtain ⟨f, hf, hn⟩ := List.mem_flatMap.1 hn
    obtain ⟨e, he, rfl⟩ := List.mem_map.1 hf
    rw [List.mem_singleton.1 hn]
    exact h e he
  · cases hn

/-- The fields of an entry refer to known types, if its zones are known. -/
theorem knownTypes_fieldTypes (h : c.Named K) (hm : m ∈ c.entries) (hzones : c.ZonesNamed K m)
    {mode : Mode} {types : List (String × TypeRef)}
    (htypes : Inputs.fieldTypes c.registry c.visibility m mode = .ok types) :
    KnownTypes K types := by
  intro e he
  obtain ⟨a, ha, ht⟩ := Inputs.mem_fieldTypes htypes he
  refine Compiler.base_typeRef h hm ha (fun hkind => ?_) ht
  exact hzones (e.1, a) (List.mem_filter.2 ⟨ha, decide_eq_true hkind⟩)

/-- The object type of an entry refers to known types. -/
theorem known_objectDeclaration (h : c.Named K) (hm : m ∈ c.entries) (hzones : c.ZonesNamed K m)
    {d : Declaration} (hd : c.objectDeclaration m = .ok d) : d.Known K := by
  obtain ⟨types, htypes, hd⟩ := bind_eq_ok.1 hd
  obtain ⟨key, _, hd⟩ := bind_eq_ok.1 hd
  cases hd
  obtain ⟨read, hread, htypes⟩ := bind_eq_ok.1 htypes
  cases htypes
  have known : ∀ own : Bool,
      KnownTypes K (if own then read else ("id", .nonNull (.of "ID")) :: read) := by
    have hfields := knownTypes_fieldTypes h hm hzones hread
    intro own
    split
    · exact hfields
    · intro e he
      rcases List.mem_cons.1 he with rfl | he
      · exact h.standard "ID" (by decide)
      · exact hfields e he
  intro n hn
  rcases List.mem_append.1 hn with hn | hn
  · obtain ⟨f, hf, hn⟩ := List.mem_flatMap.1 hn
    obtain ⟨e, he, rfl⟩ := List.mem_map.1 hf
    rw [List.mem_singleton.1 hn]
    exact known _ e he
  · cases hn

/-- The input types of an entry refer to known types. -/
theorem known_inputDeclarations (h : c.Named K) (hm : m ∈ c.entries) (hzones : c.ZonesNamed K m)
    {allowIds : Bool} {ds : List Declaration}
    (hds : Inputs.inputDeclarations c.registry c.visibility m m.globalId allowIds = .ok ds) :
    ∀ d ∈ ds, d.Known K := by
  obtain ⟨inputName, create, edit, _, htypes, rfl⟩ := Inputs.inputDeclarations_eq_ok _ _ hds
  have hstring : K (.str "String") := h.standard "String" (by decide)
  have hid : K (.str "ID") := h.standard "ID" (by decide)
  have known : KnownTypes K create ∧ KnownTypes K edit := by
    unfold Inputs.inputTypes at htypes
    rw [Compiler.afterInputModel_eq_self _ fun e he n hn => (h.enum m hm e he n hn).2] at htypes
    split at htypes
    · cases htypes
      refine ⟨List.forall_mem_singleton.2 hstring, ?_⟩
      cases allowIds with
      | true => exact List.forall_mem_singleton.2 hid
      | false => exact List.forall_mem_singleton.2 hstring
    · obtain ⟨write, hwrite, htypes⟩ := bind_eq_ok.1 htypes
      obtain ⟨update, hupdate, htypes⟩ := bind_eq_ok.1 htypes
      cases htypes
      have hfields := knownTypes_fieldTypes h hm hzones hupdate
      refine ⟨knownTypes_fieldTypes h hm hzones hwrite, ?_⟩
      cases allowIds with
      | false => exact hfields
      | true =>
          intro e he
          rcases Assoc.mem_putAll he with he | ⟨e', he', heq⟩
          · have htype : e.2 = .of "ID" := congrArg Prod.snd (List.mem_singleton.1 he)
            rw [htype]
            exact hid
          · rw [← heq]
            exact hfields e' he'
  intro d hd
  rcases List.mem_cons.1 hd with rfl | hd
  · exact known.1.input _
  · cases List.mem_singleton.1 hd
    exact known.2.input _

/-- Enum types refer to nothing. -/
theorem known_enums (types : List (Key × List Value)) :
    ∀ d ∈ types.map Enums.declaration, d.Known K := by
  intro d hd n hn
  obtain ⟨e, _, rfl⟩ := List.mem_map.1 hd
  unfold Enums.declaration at hn
  split at hn <;> cases hn

/-- The members of a zone are named after components. -/
theorem mem_zoneMembers {uids : List Value} {found : List (Key × Value)}
    (hfound : Zones.members c.registry uids = .ok found) {named : List (Key × String)}
    (hnamed : found.mapM Zones.memberName = .ok named) {e : Key × String} (he : e ∈ named) :
    ∃ component ∈ c.registry.components.map Prod.snd, component.globalId = .str e.2 := by
  obtain ⟨⟨uid, name⟩, hmember, hname⟩ := mem_of_mem_mapM hnamed he
  have hstr : name = .str e.2 := by
    unfold Zones.memberName at hname
    split at hname
    · cases hname
      next hpair =>
        cases hpair
        rfl
    · cases hname
  obtain ⟨pairs, hpairs, hfound⟩ := bind_eq_ok.1 hfound
  cases hfound
  rcases Assoc.mem_putAll hmember with hnil | ⟨pair, hpair, rfl⟩
  · cases hnil
  · obtain ⟨uid', _, hpair⟩ := mem_of_mem_mapM hpairs hpair
    obtain ⟨key, _, hpair⟩ := bind_eq_ok.1 hpair
    obtain ⟨component, hcomponent, hpair⟩ := bind_eq_ok.1 hpair
    cases hpair
    exact ⟨component, Registry.mem_of_getComponent hcomponent, hstr⟩

end ModelSchema
