/-
The names of entries. Of every entry of a compiled registry the schema
declares the object type and the enum types, of a component the input
types, and of a model the zones and whatever its operations declare; so all
names that attributes may stand for are known (`named_of_outlines`).
-/
import ModelSchema.Proofs.References.Known

namespace ModelSchema

/-- A name is that of a standard scalar, or the schema declares it. -/
def Outline.Knows (o : Outline) (n : Value) : Prop :=
  (∃ s ∈ Graphql.Standard.scalars, n = .str s) ∨ Declares o.schema n

namespace Outline

instance (o : Outline) (n : Value) : Decidable (o.Knows n) :=
  inferInstanceAs (Decidable ((∃ s ∈ Graphql.Standard.scalars, n = .str s) ∨ Declares o.schema n))

variable {os : List Outline}

theorem knows_of_declares {o : Outline} {n : Value} (h : Declares o.declarations n) :
    o.Knows n := by
  refine Or.inr (h.mono fun d hd => ?_)
  unfold schema types
  simp only [List.mem_append, List.mem_cons]
  exact Or.inr (Or.inl (Or.inl (Or.inl (Or.inr hd))))

/-- What the outline of an entry declares, the whole declares. -/
theorem knows_of_mem {o : Outline} (ho : o ∈ os) {d : Declaration} (hd : d ∈ o.declarations) :
    (merge os).Knows d.name :=
  knows_of_declares (Declares.of_mem (List.mem_flatMap.2 ⟨o, ho, hd⟩))

/-- An object type that is not the root of queries makes the union of
object types one of the declarations. -/
theorem knows_morph {key : Key} (hkey : (os.flatMap objectTypes).any (· == key) = true)
    (hquery : (Key.ofText Morph.rootQuery == key) = false) :
    (merge os).Knows (.str Morph.unionName) := by
  have member : (merge os).morphMembers.any (· == key) = true := by
    unfold morphMembers merge
    rw [Morph.any_uniqueKeys, Morph.any_uniqueKeys, hkey, hquery]
    rfl
  have some : (merge os).morphMembers.isEmpty ≠ true := by
    intro hnone
    rw [List.isEmpty_iff.1 hnone] at member
    cases member
  refine Or.inr ⟨⟨.str Morph.unionName,
    .union ((merge os).morphMembers.map fun k => k.value.text)⟩, ?_, rfl⟩
  have declared : (⟨.str Morph.unionName,
      .union ((merge os).morphMembers.map fun k => k.value.text)⟩ : Declaration)
      ∈ (merge os).morphDeclaration := by
    unfold morphDeclaration
    rw [if_neg some]
    exact List.mem_singleton_self _
  unfold schema types
  simp only [List.mem_append]
  exact Or.inr (Or.inl (Or.inl (Or.inr declared)))

end Outline

namespace Compiler

open Enums (Declared)

variable {c : Compiler} {os : List Outline} {m : Model}

-- ================================================== the names of entries

/-- The whole knows the object type of an entry and its enum types, and
tells its object type. -/
structure Settled (c : Compiler) (os : List Outline) (m : Model) : Prop where
  object : (Outline.merge os).Knows m.globalId
  enum : ∀ e ∈ c.exposedOf .enumeration m, ∀ n, e.2.enumTypeName m.globalId e.1 = .ok n →
    (Outline.merge os).Knows n ∧ n.isKey = true
  told : ∃ key, m.globalId.key = .ok key ∧ ((Key.ofText Morph.rootQuery == key) = false →
    (os.flatMap Outline.objectTypes).any (· == key) = true)

/-- The enum types of an entry are known if all that it uses are declared. -/
theorem knows_enumTypes {types : List (Key × List Value)} (htypes : c.enumTypes m = .ok types)
    {declared : Declared}
    (hdeclared : ∀ k, Assoc.has (Enums.after declared types) k = true →
      Declares (os.flatMap Outline.declarations) k.value) :
    ∀ e ∈ c.exposedOf .enumeration m, ∀ n, e.2.enumTypeName m.globalId e.1 = .ok n →
      (Outline.merge os).Knows n ∧ n.isKey = true := by
  intro e he n hn
  obtain ⟨t, ht, htype⟩ := mem_of_mapM_eq_ok htypes he
  obtain ⟨n', hn', htype⟩ := bind_eq_ok.1 htype
  obtain ⟨key, hkey, htype⟩ := bind_eq_ok.1 htype
  cases htype
  rw [hn] at hn'
  cases hn'
  have hhas : Assoc.has (Enums.after declared types) key = true := by
    rw [Enums.has_after, Bool.or_eq_true]
    exact Or.inr (List.any_eq_true.2 ⟨_, ht, BEq.rfl⟩)
  have hvalue := Value.value_of_key hkey
  rw [← hvalue]
  exact ⟨Outline.knows_of_declares (hdeclared key hhas), key.isKey⟩

/-- A component is settled, and its input types are known. -/
theorem settled_component (h : Outlined c.componentOutline os m) :
    c.Settled os m
      ∧ ∃ inputs, Inputs.inputDeclarations c.registry c.visibility m m.globalId true = .ok inputs
        ∧ ∀ d ∈ inputs, (Outline.merge os).Knows d.name := by
  obtain ⟨before, o, after, ho, hmem, hdeclared⟩ := h
  obtain ⟨object, types, inputs, key, hobject, htypes, hinputs, hkey, rfl, rfl⟩ :=
    componentOutline_eq_ok ho
  refine ⟨⟨?_, knows_enumTypes htypes hdeclared, key, hkey, fun _ => ?_⟩, inputs, hinputs,
    fun d hd => Outline.knows_of_mem hmem (List.mem_append_right _ hd)⟩
  · rw [← name_objectDeclaration hobject]
    exact Outline.knows_of_mem hmem List.mem_cons_self
  · exact List.any_eq_true.2 ⟨key, List.mem_flatMap.2 ⟨_, hmem, List.mem_cons_self⟩, BEq.rfl⟩

/-- A model whose own declarations are known and told is settled, and its
zones are known. -/
theorem settled_own {before after : Declared} {own : Outline}
    (hown : c.ownOutline before m = .ok (own, after))
    (hdeclared : ∀ k, Assoc.has after k = true →
      Declares (os.flatMap Outline.declarations) k.value)
    (hknown : ∀ d ∈ own.declarations, (Outline.merge os).Knows d.name)
    (htold : ∀ key ∈ own.objectTypes, (Key.ofText Morph.rootQuery == key) = false →
      (os.flatMap Outline.objectTypes).any (· == key) = true) :
    c.Settled os m
      ∧ ∃ zones, c.zoneDeclarations m = .ok zones
        ∧ ∀ d ∈ zones, (Outline.merge os).Knows d.name := by
  obtain ⟨object, types, zones, key, hobject, htypes, hzones, hkey, rfl, rfl⟩ :=
    ownOutline_eq_ok hown
  refine ⟨⟨?_, knows_enumTypes htypes hdeclared, key, hkey, htold key List.mem_cons_self⟩,
    zones, hzones, fun d hd => hknown d (List.mem_append_right _ hd)⟩
  rw [← name_objectDeclaration hobject]
  exact hknown object List.mem_cons_self

/-- A model is settled, its zones are known, and so is what its operations
declare. -/
theorem settled_model (h : Outlined c.modelOutline os m) :
    c.Settled os m
      ∧ (∃ zones, c.zoneDeclarations m = .ok zones
        ∧ ∀ d ∈ zones, (Outline.merge os).Knows d.name)
      ∧ (c.config.shadowCrud = true → ∃ operations, c.operationsOutline m = .ok operations
        ∧ ∀ d ∈ operations.declarations, (Outline.merge os).Knows d.name) := by
  obtain ⟨before, o, after, ho, hmem, hdeclared⟩ := h
  obtain ⟨own, hown, ⟨hshadow, rfl⟩ | ⟨operations, hshadow, hoperations, rfl⟩⟩ :=
    modelOutline_eq_ok ho
  · obtain ⟨hsettled, hzones⟩ := settled_own hown hdeclared
      (fun d hd => Outline.knows_of_mem hmem hd)
      (fun key hkey _ => List.any_eq_true.2 ⟨key, List.mem_flatMap.2 ⟨_, hmem, hkey⟩, BEq.rfl⟩)
    refine ⟨hsettled, hzones, fun h => ?_⟩
    rw [hshadow] at h
    cases h
  · have hsub : ∀ d, d ∈ own.declarations ∨ d ∈ operations.declarations →
        (Outline.merge os).Knows d.name := by
      intro d hd
      refine Outline.knows_of_mem hmem (List.mem_flatMap.2 ?_)
      rcases hd with hd | hd
      · exact ⟨own, List.mem_cons_self, hd⟩
      · exact ⟨operations, List.mem_cons_of_mem _ List.mem_cons_self, hd⟩
    have told : ∀ key ∈ own.objectTypes, (Key.ofText Morph.rootQuery == key) = false →
        (os.flatMap Outline.objectTypes).any (· == key) = true := by
      intro key hkey hquery
      have hown : own.objectTypes.any (· == key) = true :=
        List.any_eq_true.2 ⟨key, hkey, BEq.rfl⟩
      have merged : (Outline.merge [own, operations]).objectTypes.any (· == key) = true := by
        unfold Outline.merge
        rw [Morph.any_uniqueKeys, hquery, List.flatMap_cons, List.any_append, hown]
        rfl
      obtain ⟨key', hkey', hsame⟩ := List.any_eq_true.1 merged
      exact List.any_eq_true.2 ⟨key', List.mem_flatMap.2 ⟨_, hmem, hkey'⟩, hsame⟩
    obtain ⟨hsettled, hzones⟩ :=
      settled_own hown hdeclared (fun d hd => hsub d (Or.inl hd)) told
    exact ⟨hsettled, hzones, fun _ => ⟨operations, hoperations, fun d hd => hsub d (Or.inr hd)⟩⟩

/-- The names of all entries of a compiled registry are known. -/
theorem named_of_outlines (h : c.outlines = .ok os)
    (hquery : ∀ m ∈ c.entries, m.globalId ≠ .str Morph.rootQuery) :
    c.Named (Outline.merge os).Knows := by
  obtain ⟨hcomponents, hmodels⟩ := outlined_of_outlines h
  have settled : ∀ m ∈ c.entries, c.Settled os m := by
    intro m hm
    rcases List.mem_append.1 hm with hm | hm
    · exact (settled_component (hcomponents m hm)).1
    · exact (settled_model (hmodels m hm)).1
  refine ⟨?_, ?_, ?_, ?_, ?_, ?_, ?_⟩
  · exact fun s hs => Or.inl ⟨s, hs, rfl⟩
  · intro s
    have hs : s ∈ Scalar.all := by cases s <;> decide
    exact Or.inr (Declares.of_mem (d := ⟨.str s.name, .scalar⟩)
      (List.mem_append_left _ (List.mem_map.2 ⟨s, hs, rfl⟩)))
  · exact fun m hm => (settled m (List.mem_append_left _ hm)).object
  · intro m hm name hname
    obtain ⟨_, inputs, hinputs, hknown⟩ := settled_component (hcomponents m hm)
    obtain ⟨inputName, create, edit, hname', _, rfl⟩ := Inputs.inputDeclarations_eq_ok _ _ hinputs
    rw [hname] at hname'
    cases hname'
    exact ⟨hknown _ List.mem_cons_self, hknown _ (List.mem_cons_of_mem _ List.mem_cons_self)⟩
  · exact fun m hm => (settled m (List.mem_append_right _ hm)).object
  · exact fun m hm => (settled m hm).enum
  · intro hsome
    obtain ⟨m, hm⟩ := List.exists_mem_of_ne_nil _ hsome
    obtain ⟨key, hkey, htold⟩ := (settled m hm).told
    have hne : (Key.ofText Morph.rootQuery == key) = false := by
      rw [Bool.eq_false_iff, ne_eq, Key.beq_iff]
      intro hsame
      have hstr := (Value.sameName_str_iff key.value Morph.rootQuery).1 hsame.symm
      rw [Value.value_of_key hkey] at hstr
      exact hquery m hm hstr
    exact Outline.knows_morph (htold hne) hne

end Compiler

end ModelSchema
