/-
Where the names of types come from. Every type that an attribute of an
entry stands for, in any mode, is named after a standard or declared
scalar, an enum type of the entry, a component or its input types, a model,
the union of object types, or one of the two types of a dynamic zone. So
once all of these are known but the zones, what is left to know of an
attribute is its own zone (`base_typeRef`).
-/
import ModelSchema.Proofs.Outline.Entries

namespace ModelSchema

-- ============================================================== look-up

namespace Registry

variable {r : Registry}

/-- A component that is found is registered. -/
theorem mem_of_getComponent {uid : Value} {m : Model} (h : r.getComponent uid = .ok m) :
    m ∈ r.components.map Prod.snd := by
  obtain ⟨key, _, h⟩ := bind_eq_ok.1 h
  cases hget : Assoc.get? r.components key with
  | none =>
      rw [hget] at h
      cases h
  | some found =>
      rw [hget] at h
      cases h
      obtain ⟨k, hk, _⟩ := Assoc.mem_of_get?_eq_some hget
      exact List.mem_map.2 ⟨_, hk, rfl⟩

/-- A model that is found is registered. -/
theorem mem_of_getModel {name plugin : Value} {m : Model} (h : r.getModel name plugin = .ok m) :
    m ∈ r.models.map Prod.snd := by
  obtain ⟨key, _, h⟩ := bind_eq_ok.1 h
  have found : ∀ {k : ModelKey} {m' : Model}, Assoc.get? r.models k = some m' →
      m' ∈ r.models.map Prod.snd := by
    intro k m' hget
    obtain ⟨k', hk, _⟩ := Assoc.mem_of_get?_eq_some hget
    exact List.mem_map.2 ⟨_, hk, rfl⟩
  dsimp only at h
  split at h
  · next m' hor =>
      cases h
      rcases Option.or_eq_some_iff.1 hor with hown | ⟨_, happ⟩
      · split at hown
        · cases hown
        · exact found hown
      · exact found happ
  · cases h

end Registry

-- =============================================================== origins

namespace Compiler

/-- The names of everything but dynamic zones that attributes of entries
may stand for are known. -/
structure Named (c : Compiler) (K : Value → Prop) : Prop where
  standard : ∀ s ∈ Graphql.Standard.scalars, K (.str s)
  scalar : ∀ s : Scalar, K (.str s.name)
  component : ∀ m ∈ c.registry.components.map Prod.snd, K m.globalId
  input : ∀ m ∈ c.registry.components.map Prod.snd, ∀ name,
    Naming.inputNameOf m.globalId = .ok name → K (.str name) ∧ K (.str ("edit" ++ name))
  model : ∀ m ∈ c.registry.models.map Prod.snd, K m.globalId
  enum : ∀ m ∈ c.entries, ∀ e ∈ c.exposedOf .enumeration m, ∀ n,
    e.2.enumTypeName m.globalId e.1 = .ok n → K n ∧ n.isKey = true
  morph : c.entries ≠ [] → K (.str Morph.unionName)

/-- Names that are known stay known when more is. -/
theorem Named.mono {c : Compiler} {K K' : Value → Prop} (hK : ∀ n, K n → K' n) (h : c.Named K) :
    c.Named K' where
  standard s hs := hK _ (h.standard s hs)
  scalar s := hK _ (h.scalar s)
  component m hm := hK _ (h.component m hm)
  input m hm name hname := (h.input m hm name hname).imp (hK _) (hK _)
  model m hm := hK _ (h.model m hm)
  enum m hm e he n hn := (h.enum m hm e he n hn).imp_left (hK _)
  morph hsome := hK _ (h.morph hsome)

/-- The two types of the zone of an attribute are known. -/
def ZoneNamed (K : Value → Prop) (globalId : Value) (field : String) : Prop :=
  K (.str (Attribute.zoneName globalId field))
    ∧ K (.str (Attribute.zoneName globalId field ++ "Input"))

variable {c : Compiler} {K : Value → Prop}

/-- The type of every scalar attribute is a standard scalar or a declared
one. -/
theorem Named.ofScalarType (h : c.Named K) (t : String) :
    K (.str ((Assoc.get? Attribute.scalarTypes t).getD "String")) := by
  have split : ∀ e ∈ Attribute.scalarTypes,
      e.2 ∈ Graphql.Standard.scalars ∨ ∃ s ∈ Scalar.all, s.name = e.2 := by decide
  cases hget : Assoc.get? Attribute.scalarTypes t with
  | none => exact h.standard "String" (by decide)
  | some name =>
      obtain ⟨k, hk, _⟩ := Assoc.mem_of_get?_eq_some hget
      rcases split _ hk with hstandard | ⟨s, _, hs⟩
      · exact h.standard name hstandard
      · have hscalar := h.scalar s
        rw [hs] at hscalar
        exact hscalar

/-- The mark of a field that has to be there leaves its name. -/
theorem base_demandedName {n : Value} (hkey : n.isKey = true) {t : TypeRef}
    (h : Attribute.demandedName n = .ok t) : t.base = n := by
  cases n with
  | str s =>
      cases h
      rfl
  | list items => cases hkey
  | _ => cases h

variable {m : Model} {name : String} {a : Attribute} {mode : Mode} {t : TypeRef}

/-- The type of a scalar or enumeration is known. -/
theorem base_scalarRef (h : c.Named K) (hm : m ∈ c.entries) (ha : (name, a) ∈ c.exposed m)
    (ht : a.scalarRef m.globalId name mode = .ok t) : K t.base := by
  obtain ⟨_, _, ht⟩ := bind_eq_ok.1 ht
  have named : ∀ n : Value, K n ∧ n.isKey = true →
      (if a.isDemanded mode then Attribute.demandedName n else pure (.named n)) = .ok t →
      K t.base := by
    intro n hn ht
    split at ht
    · rw [base_demandedName hn.2 ht]
      exact hn.1
    · cases ht
      exact hn.1
  by_cases henum : a.type = .str "enumeration"
  · rw [if_pos henum] at ht
    obtain ⟨n, hn, ht⟩ := bind_eq_ok.1 ht
    have hkind : a.kind = .enumeration := a.kind_eq_enumeration_iff.2 henum
    have hmem : (name, a) ∈ c.exposedOf .enumeration m :=
      List.mem_filter.2 ⟨ha, decide_eq_true hkind⟩
    exact named n (h.enum m hm _ hmem n hn) ht
  · rw [if_neg henum] at ht
    split at ht
    · next s _ => exact named _ ⟨h.ofScalarType s, rfl⟩ ht
    · exact named _ ⟨h.standard "String" (by decide), rfl⟩ ht

/-- A type is known whatever it is a list of, or if it has to be there. -/
theorem base_listIf {flag : Bool} {item : TypeRef} (hitem : K item.base)
    (ht : (pure (if flag then .list item else item) : Except Fault TypeRef) = .ok t) :
    K t.base := by
  cases ht
  cases flag <;> exact hitem

/-- The input type of a component is one of its two input types. -/
theorem componentInput_eq_ok {component : Model} {input : String} (hmode : mode ≠ .read)
    (h : Attribute.componentInput component mode = .ok input) :
    ∃ name, Naming.inputNameOf component.globalId = .ok name
      ∧ (input = name ∨ input = "edit" ++ name) := by
  obtain ⟨singular, hsingular, h⟩ := bind_eq_ok.1 h
  cases h
  refine ⟨Naming.upperFirst singular ++ "Input", bind_eq_ok.2 ⟨singular, hsingular, rfl⟩, ?_⟩
  cases mode with
  | read => exact absurd rfl hmode
  | write => exact Or.inl rfl
  | update => exact Or.inr String.append_assoc

/-- The type of a component is known. -/
theorem base_componentRef (h : c.Named K) (ht : a.componentRef c.registry mode = .ok t) :
    K t.base := by
  obtain ⟨component, hcomponent, ht⟩ := bind_eq_ok.1 ht
  have hm := Registry.mem_of_getComponent hcomponent
  by_cases hmode : mode = .read
  · subst hmode
    refine base_listIf ?_ ht
    exact h.component component hm
  · have hmutation : mode.isMutation = true := by
      cases mode with
      | read => exact absurd rfl hmode
      | _ => rfl
    rw [if_pos hmutation] at ht
    obtain ⟨input, hinput, ht⟩ := bind_eq_ok.1 ht
    refine base_listIf ?_ ht
    rw [TypeRef.base_requiredIf, TypeRef.base_of]
    obtain ⟨inputName, hname, hcase⟩ := componentInput_eq_ok hmode hinput
    obtain ⟨hcreate, hedit⟩ := h.input component hm inputName hname
    rcases hcase with rfl | rfl
    · exact hcreate
    · exact hedit

/-- The type of a relation is known. -/
theorem base_relationRef (h : c.Named K) (hm : m ∈ c.entries)
    (ht : a.relationRef c.registry mode = .ok t) : K t.base := by
  have hid : K (.str "ID") := h.standard "ID" (by decide)
  unfold Attribute.relationRef at ht
  by_cases htarget : (a.target.isGiven && a.target ≠ Attribute.wildcard) = true
  · simp only [htarget, if_true] at ht
    obtain ⟨target, hfound, ht⟩ := bind_eq_ok.1 ht
    refine base_listIf ?_ ht
    split
    · exact hid
    · exact h.model _ (Registry.mem_of_getModel hfound)
  · simp only [htarget] at ht
    have hitem : K (TypeRef.of (if mode.isMutation then "ID" else "Morph")).base := by
      split
      · exact hid
      · exact h.morph (List.ne_nil_of_mem hm)
    cases ht
    split
    · exact hitem
    · exact hitem

/-- The type of an exposed attribute is known, if it is no zone or its zone
is known. -/
theorem base_typeRef (h : c.Named K) (hm : m ∈ c.entries) (ha : (name, a) ∈ c.exposed m)
    (hzone : a.kind = .dynamicZone → ZoneNamed K m.globalId name)
    (ht : a.typeRef c.registry m.globalId name mode = .ok t) : K t.base := by
  unfold Attribute.typeRef at ht
  by_cases hcomponent : a.type = .str "component"
  · rw [if_pos hcomponent] at ht
    exact base_componentRef h ht
  rw [if_neg hcomponent] at ht
  by_cases hdynamic : a.type = .str "dynamiczone"
  · rw [if_pos hdynamic] at ht
    cases ht
    obtain ⟨hread, hwrite⟩ := hzone (a.kind_eq_dynamicZone_iff.2 hdynamic)
    unfold Attribute.zoneRef
    rw [TypeRef.base_requiredIf]
    cases mode with
    | read => exact hread
    | write => exact hwrite
    | update => exact hwrite
  rw [if_neg hdynamic] at ht
  split at ht
  · exact base_scalarRef h hm ha ht
  · exact base_relationRef h hm ht

end Compiler

end ModelSchema
