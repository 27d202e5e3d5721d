/-
Referential closure. In a schema that is compiled from a registry alone
every model refers only to standard scalars and to what the schema declares
(`modelFragment_references`). Of a component the same holds but for its
dynamic zones, whose types no component declares: it refers only to what is
declared exactly if something else declares them
(`componentFragment_references_iff`).
-/
import ModelSchema.Proofs.References.Settled

namespace ModelSchema.Compiler

open Enums (Declared)

variable {c : Compiler} {os : List Outline} {m : Model}

-- ================================================================ models

/-- The outline of an entry refers to known types if its parts do. -/
theorem known_entryOutline {K : Value → Prop} {object : Declaration} (hobject : object.Known K)
    (types : List (Key × List Value)) {others : List Declaration}
    (hothers : ∀ d ∈ others, d.Known K) (key : Key) :
    ∀ n ∈ (entryOutline object types others key).references, K n := by
  intro n hn
  rcases Outline.mem_references.1 hn with ⟨d, hd, hin⟩ | ⟨f, hf, _⟩ | ⟨f, hf, _⟩
  · rcases List.mem_append.1 hd with hd | hd
    · rcases List.mem_cons.1 hd with rfl | hd
      · exact hobject n hin
      · exact known_enums types d hd n hin
    · exact hothers d hd n hin
  · cases hf
  · cases hf

/-- A component refers to known types if its zones are known. -/
theorem known_componentOutline {K : Value → Prop} (h : c.Named K) (hm : m ∈ c.entries)
    (hzones : c.ZonesNamed K m) {declared next : Declared} {o : Outline}
    (ho : c.componentOutline declared m = .ok (o, next)) : ∀ n ∈ o.references, K n := by
  obtain ⟨object, types, inputs, key, hobject, _, hinputs, _, rfl, rfl⟩ :=
    componentOutline_eq_ok ho
  exact known_entryOutline (known_objectDeclaration h hm hzones hobject) _
    (known_inputDeclarations h hm hzones hinputs) key

/-- The object type and the input type of an entry refer to its zones. -/
theorem zonesNamed_of_known {K : Value → Prop} {object : Declaration}
    (hobject : c.objectDeclaration m = .ok object) {inputs : List Declaration} {allowIds : Bool}
    (hinputs : Inputs.inputDeclarations c.registry c.visibility m m.globalId allowIds = .ok inputs)
    (hknown : object.Known K) (hknown' : ∀ d ∈ inputs, d.Known K) : c.ZonesNamed K m := by
  rintro ⟨name, a⟩ he
  obtain ⟨hexposed, hkind⟩ := List.mem_filter.1 he
  have htype : a.type = .str "dynamiczone" :=
    a.kind_eq_dynamicZone_iff.1 (of_decide_eq_true hkind)
  have zoneType : ∀ mode, a.typeRef c.registry m.globalId name mode
      = .ok (a.zoneRef m.globalId name mode) := by
    intro mode
    unfold Attribute.typeRef
    rw [htype]
    rfl
  constructor
  · -- what is read is the union
    obtain ⟨types, htypes, hobject⟩ := bind_eq_ok.1 hobject
    obtain ⟨_, _, hobject⟩ := bind_eq_ok.1 hobject
    cases hobject
    obtain ⟨read, hread, htypes⟩ := bind_eq_ok.1 htypes
    cases htypes
    obtain ⟨t, ht, htypeRef⟩ := Inputs.exists_mem_fieldTypes hread hexposed
    rw [zoneType] at htypeRef
    cases htypeRef
    have hbase : (a.zoneRef m.globalId name .read).base
        = .str (Attribute.zoneName m.globalId name) := TypeRef.base_requiredIf _ _
    rw [← hbase]
    refine hknown _ (List.mem_append_left _ (List.mem_flatMap.2
      ⟨_, List.mem_map_of_mem (a := (name, a.zoneRef m.globalId name .read)) ?_,
        List.mem_cons_self⟩))
    split
    · exact ht
    · exact List.mem_cons_of_mem _ ht
  · -- what is written is a list of the scalar
    obtain ⟨inputName, create, edit, _, htypes, rfl⟩ := Inputs.inputDeclarations_eq_ok _ _ hinputs
    unfold Inputs.inputTypes at htypes
    have some : (Inputs.exposed c.visibility m).isEmpty ≠ true := by
      rw [ne_eq, List.isEmpty_iff]
      exact List.ne_nil_of_mem hexposed
    rw [if_neg some] at htypes
    obtain ⟨write, hwrite, htypes⟩ := bind_eq_ok.1 htypes
    obtain ⟨update, _, htypes⟩ := bind_eq_ok.1 htypes
    cases htypes
    obtain ⟨t, ht, htypeRef⟩ := Inputs.exists_mem_fieldTypes hwrite hexposed
    rw [zoneType] at htypeRef
    cases htypeRef
    have hbase : (a.zoneRef m.globalId name .write).base
        = .str (Attribute.zoneName m.globalId name ++ "Input") := TypeRef.base_requiredIf _ _
    rw [← hbase]
    exact hknown' _ List.mem_cons_self _ (List.mem_append_left _ (List.mem_flatMap.2
      ⟨_, List.mem_map_of_mem ht, List.mem_cons_self⟩))

/-- A name of one of the types of the zones of an entry. -/
def ZoneType (c : Compiler) (m : Model) (n : Value) : Prop :=
  ∃ e ∈ c.exposedOf .dynamicZone m, n = .str (Attribute.zoneName m.globalId e.1)
    ∨ n = .str (Attribute.zoneName m.globalId e.1 ++ "Input")

/-- A component of a schema that is compiled from a registry alone refers
only to standard scalars, to what the schema declares, and to the types of
its own dynamic zones. So it refers only to what is declared exactly if both
types of each of its zones are. -/
theorem componentFragment_references_iff (r : Registry) (visibility : Option Visibility)
    (config : Config)
    (hquery : ∀ m ∈ r.components.map Prod.snd ++ r.models.map Prod.snd,
      m.globalId ≠ .str Morph.rootQuery)
    {p q : Progress} {s : CompiledSchema}
    (h : (ofRegistry r visibility config).build.Yields p s q) :
    ∃ o, (ofRegistry r visibility config).outline = .ok o ∧ s.sdl = o.sdl
      ∧ ∀ m ∈ r.components.map Prod.snd, ∀ (p' q' : Progress) (f : Fragment),
        ((ofRegistry r visibility config).componentFragment m).Yields p' f q' →
        ∃ part, (ofRegistry r visibility config).componentOutline p'.declared m
            = .ok (part, q'.declared)
          ∧ part.Renders f
          ∧ (∀ n ∈ part.references, o.Knows n ∨ (ofRegistry r visibility config).ZoneType m n)
          ∧ ((∀ n ∈ part.references, o.Knows n)
            ↔ (ofRegistry r visibility config).ZonesNamed o.Knows m) := by
  obtain ⟨o, ho, _, hsdl, _⟩ := build_yields rfl h
  refine ⟨o, ho, hsdl, fun m hm p' q' f hf => ?_⟩
  obtain ⟨os, hos, rfl⟩ := map_eq_ok.1 ho
  obtain ⟨part, hpart, hrenders⟩ := componentFragment_yields hf
  have named := named_of_outlines hos hquery
  have hentry : m ∈ (ofRegistry r visibility config).entries := List.mem_append_left _ hm
  refine ⟨part, hpart, hrenders, ?_, fun hknown => ?_, fun hzones => ?_⟩
  · refine known_componentOutline (named.mono fun n hn => Or.inl hn) hentry (fun e he => ?_) hpart
    exact ⟨Or.inr ⟨e, he, Or.inl rfl⟩, Or.inr ⟨e, he, Or.inr rfl⟩⟩
  · obtain ⟨object, types, inputs, key, hobject, _, hinputs, _, rfl, _⟩ :=
      componentOutline_eq_ok hpart
    refine zonesNamed_of_known hobject hinputs (fun n hn => hknown n ?_)
      fun d hd n hn => hknown n ?_
    · exact Outline.mem_references.2 (Or.inl ⟨object, List.mem_cons_self, hn⟩)
    · exact Outline.mem_references.2 (Or.inl ⟨d, List.mem_append_right _ hd, hn⟩)
  · exact known_componentOutline named hentry hzones hpart

/-- A component with a dynamic zone. -/
def zoneComponent : Model :=
  { name := .str "a", globalId := .str "A", kind := .str "component", uid := .str "a"
    attributes := [("z", { type := .str "dynamiczone" })] }

/-- A registry of that component and a model. -/
def zoneRegistry : Registry :=
  { components := [(.ofText "a", zoneComponent)]
    models := [(.ofName "m",
      { name := .str "m", globalId := .str "M"
        attributes := [("t", { type := .str "string" })] })] }

theorem componentFragment_references_zone :
    ∃ s q, (ofRegistry zoneRegistry none {}).build.Yields {} s q
      ∧ ∃ o, (ofRegistry zoneRegistry none {}).outline = .ok o ∧ s.sdl = o.sdl
        ∧ ∀ m ∈ zoneRegistry.components.map Prod.snd, ∀ (p' q' : Progress) (f : Fragment),
          ((ofRegistry zoneRegistry none {}).componentFragment m).Yields p' f q' →
          ∃ part, (ofRegistry zoneRegistry none {}).componentOutline p'.declared m
              = .ok (part, q'.declared)
            ∧ part.Renders f
            ∧ (∀ n ∈ part.references, o.Knows n ∨ (ofRegistry zoneRegistry none {}).ZoneType m n)
            ∧ ((∀ n ∈ part.references, o.Knows n)
              ↔ (ofRegistry zoneRegistry none {}).ZonesNamed o.Knows m) := by
  obtain ⟨s, q, h⟩ := Work.exists_yields
    (w := (ofRegistry zoneRegistry none {}).build) (p := {}) (by decide +kernel)
  exact ⟨s, q, h, componentFragment_references_iff zoneRegistry none {} (by decide) h⟩

/-- The union of a component's zone is referred to and not declared, though
the schema is compiled. -/
theorem component_zone_undeclared :
    (∀ m ∈ zoneRegistry.components.map Prod.snd ++ zoneRegistry.models.map Prod.snd,
        m.globalId ≠ .str Morph.rootQuery)
      ∧ ∃ s q, (ofRegistry zoneRegistry none {}).build.Yields {} s q
        ∧ ∃ o, (ofRegistry zoneRegistry none {}).outline = .ok o ∧ s.sdl = o.sdl
          ∧ ∃ m ∈ zoneRegistry.components.map Prod.snd, ∃ f q' part,
            ((ofRegistry zoneRegistry none {}).componentFragment m).Yields {} f q'
            ∧ (ofRegistry zoneRegistry none {}).componentOutline [] m = .ok (part, q'.declared)
            ∧ part.Renders f
            ∧ .str "AZDynamicZone" ∈ part.references ∧ ¬ o.Knows (.str "AZDynamicZone") := by
  refine ⟨by decide, ?_⟩
  obtain ⟨s, q, h⟩ := Work.exists_yields
    (w := (ofRegistry zoneRegistry none {}).build) (p := {}) (by decide +kernel)
  obtain ⟨o, ho, _, hsdl, _⟩ := build_yields rfl h
  have unknown : (!decide (o.Knows (.str "AZDynamicZone"))) = true :=
    holds_of_eq_ok (p := fun o => !decide (o.Knows (.str "AZDynamicZone"))) (by decide +kernel) ho
  obtain ⟨f, q', hf⟩ := Work.exists_yields
    (w := (ofRegistry zoneRegistry none {}).componentFragment zoneComponent)
    (p := {}) (by decide +kernel)
  obtain ⟨part, hpart, hrenders⟩ := componentFragment_yields hf
  have refers : decide (.str "AZDynamicZone" ∈ part.references) = true :=
    holds_of_eq_ok (p := fun x => decide (.str "AZDynamicZone" ∈ x.1.references))
      (by decide +kernel) hpart
  exact ⟨s, q, h, o, ho, hsdl, _, List.mem_cons_self, f, q', part, hf, hpart, hrenders,
    of_decide_eq_true refers, by simpa using unknown⟩

end ModelSchema.Compiler
