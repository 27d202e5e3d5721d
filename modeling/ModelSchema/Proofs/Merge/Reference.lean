/-
What a merge is, without saying how it is made. Merged maps keep types and
entries in the order in which they first appear over the merged fragments,
and under each name the entry of the last fragment that has one, taken
whole; texts are put one after another, and every object type is told once
(`merge_entrywise`).
-/
import ModelSchema.Proofs.Merge.Basic
import ModelSchema.Proofs.Merge.Sections

namespace ModelSchema

-- ================================================= maps merged in a row

namespace SectionMap

/-- A map of two levels holds what maps of two levels hold together: the
last of them decides on each entry, the first appearance on its place. -/
structure MergedFrom (parts : List SectionMap) (m : SectionMap) : Prop where
  maps : m.AllMaps
  present : ∀ type, Assoc.has m type = parts.any fun part => Assoc.has part type
  types : m.map Prod.fst = (parts.flatMap fun part => part.map Prod.fst).eraseDups
  names : ∀ type, (m.fieldsOf type).map Prod.fst
    = (parts.flatMap fun part => (part.fieldsOf type).map Prod.fst).eraseDups
  entry : ∀ type name, Assoc.get? (m.fieldsOf type) name
    = parts.reverse.findSome? fun part => Assoc.get? (part.fieldsOf type) name

variable {parts : List SectionMap}

theorem allMaps_foldl_merge {start : SectionMap} (hstart : start.AllMaps)
    (h : ∀ part ∈ parts, part.AllMaps) : (parts.foldl merge start).AllMaps := by
  induction parts generalizing start with
  | nil => exact hstart
  | cons part parts ih =>
      refine ih (allMaps_merge hstart (h part List.mem_cons_self)) fun q hq => ?_
      exact h q (List.mem_cons_of_mem _ hq)

/-- The entries of a type are merged on their own, one map after
another. -/
theorem fieldsOf_foldl_merge {start : SectionMap} (hstart : start.AllMaps)
    (h : ∀ part ∈ parts, part.AllMaps ∧ part.WellFormed) (type : Key) :
    (parts.foldl merge start).fieldsOf type
      = (parts.map fun part => part.fieldsOf type).foldl Assoc.putAll (start.fieldsOf type) := by
  induction parts generalizing start with
  | nil => rfl
  | cons part parts ih =>
      obtain ⟨hmaps, hwell⟩ := h part List.mem_cons_self
      rw [List.foldl_cons,
        ih (allMaps_merge hstart hmaps) fun q hq => h q (List.mem_cons_of_mem _ hq),
        fieldsOf_merge hstart hmaps hwell]
      rfl

theorem mergedFrom_foldl (h : ∀ part ∈ parts, part.AllMaps ∧ part.WellFormed) :
    MergedFrom parts (parts.foldl merge []) := by
  have hnothing : AllMaps [] := fun _ he => (by cases he)
  have hkeys : (parts.foldl merge []).map Prod.fst
      = Morph.firstsAfter [] (parts.flatMap fun part => part.map Prod.fst) :=
    Assoc.keys_foldl keys_merge [] parts
  have hfields := fieldsOf_foldl_merge hnothing h
  refine ⟨allMaps_foldl_merge hnothing fun part hpart => (h part hpart).1, ?_, ?_, ?_, ?_⟩
  · intro type
    rw [Assoc.has_eq_any_keys, hkeys, Morph.any_firstsAfter, List.any_nil, Bool.not_false,
      Bool.and_true, List.any_flatMap]
    exact congrArg parts.any (funext fun part => (Assoc.has_eq_any_keys part type).symm)
  · rw [hkeys, Morph.firstsAfter_nil]
  · intro type
    rw [hfields, Assoc.keys_foldl Assoc.keys_putAll, List.flatMap_map]
    exact Morph.firstsAfter_nil _
  · intro type name
    have hdistinct : ∀ fields ∈ parts.map fun part => part.fieldsOf type,
        Assoc.Distinct fields := by
      intro fields hmem
      obtain ⟨part, hpart, rfl⟩ := List.mem_map.1 hmem
      exact (h part hpart).2.fieldsOf type
    rw [hfields, Assoc.get?_foldl_putAll hdistinct, ← List.map_reverse, List.findSome?_map]
    exact Option.or_none

end SectionMap

-- ====================================================== merged fragments

namespace Fragment

/-- A fragment whose maps repeat no key. -/
structure WellFormed (f : Fragment) : Prop where
  type : f.type.WellFormed
  resolver : f.resolver.WellFormed
  sources : Assoc.Distinct f.sources

/-- A merged fragment is what the fragments say together: texts in order,
maps entry by entry, each object type but the root of queries once, and
for each resolver the source that was told last. -/
theorem merge_entrywise {fs : List Fragment}
    (h : ∀ f ∈ fs, f.WellFormed ∧ f.type.AllMaps ∧ f.resolver.AllMaps) :
    (merge fs).definition = fs.flatMap definition
      ∧ (merge fs).query = fs.flatMap query
      ∧ (merge fs).mutation = fs.flatMap mutation
      ∧ SectionMap.MergedFrom (fs.map type) (merge fs).type
      ∧ SectionMap.MergedFrom (fs.map resolver) (merge fs).resolver
      ∧ (merge fs).objectTypes
          = ((fs.flatMap objectTypes).filter fun k => !(Key.ofText "Query" == k)).eraseDups
      ∧ ∀ key, Assoc.get? (merge fs).sources key
          = fs.reverse.findSome? fun f => Assoc.get? f.sources key := by
  refine ⟨merge_definition fs, merge_query fs, merge_mutation fs, ?_, ?_, ?_, ?_⟩
  · rw [merge_type]
    refine SectionMap.mergedFrom_foldl fun part hpart => ?_
    obtain ⟨f, hf, rfl⟩ := List.mem_map.1 hpart
    exact ⟨(h f hf).2.1, (h f hf).1.type⟩
  · rw [merge_resolver]
    refine SectionMap.mergedFrom_foldl fun part hpart => ?_
    obtain ⟨f, hf, rfl⟩ := List.mem_map.1 hpart
    exact ⟨(h f hf).2.2, (h f hf).1.resolver⟩
  · rw [merge_objectTypes, Morph.uniqueKeys, Morph.firstsAfter_eq_eraseDups]
    refine congrArg List.eraseDups (List.filter_congr fun k _ => ?_)
    rw [List.any_cons, List.any_nil, Bool.or_false]
    rfl
  · intro key
    have hdistinct : ∀ part ∈ fs.map sources, Assoc.Distinct part := by
      intro part hpart
      obtain ⟨f, hf, rfl⟩ := List.mem_map.1 hpart
      exact (h f hf).1.sources
    rw [merge_sources, Assoc.get?_foldl_putAll hdistinct, ← List.map_reverse, List.findSome?_map]
    exact Option.or_none

/-- A resolver written at a place, known by the name of its callable. -/
def resolverEntry (name : String) (place : Nat) : Entry := ⟨.given (.callable name), some place⟩

/-- Two fragments that both resolve `Query.page`, each beside something of
its own. -/
def pageFragments : List Fragment :=
  [{ definition := ["type Page \x7b id: ID! \x7d"]
     query := ["page: Page"]
     resolver := [(.ofText "Query", .entries [("page", resolverEntry "plain" 0),
       ("pages", resolverEntry "all" 0)])]
     objectTypes := [.ofText "Page", .ofText "Query"]
     sources := [("Query.page", { plugin := some "cms" }), ("Query.pages", { plugin := some "cms" })] },
   { query := ["draft: Page"]
     type := [(.ofText "Page", .entries [("id", ⟨.given (.str "Identifier"), some 1⟩)])]
     resolver := [(.ofText "Page", .entries []),
       (.ofText "Query", .entries [("draft", resolverEntry "draft" 1),
         ("page", resolverEntry "cached" 1)])]
     objectTypes := [.ofText "Page"]
     sources := [("Query.page", { api := some "site" })] }]

theorem wellFormed_pageFragments :
    ∀ f ∈ pageFragments, f.WellFormed ∧ f.type.AllMaps ∧ f.resolver.AllMaps := by
  have distinct : ∀ f ∈ pageFragments, Assoc.Distinct f.type ∧ Assoc.Distinct f.resolver
      ∧ Assoc.Distinct f.sources
      ∧ ∀ e ∈ f.type ++ f.resolver, Assoc.Distinct e.2.fields := by
    unfold Assoc.Distinct
    decide
  intro f hf
  obtain ⟨htype, hresolver, hsources, hfields⟩ := distinct f hf
  refine ⟨⟨⟨htype, fun e he => hfields e (List.mem_append_left _ he)⟩,
    ⟨hresolver, fun e he => hfields e (List.mem_append_right _ he)⟩, hsources⟩, ?_⟩
  rcases List.mem_cons.1 hf with rfl | hf
  · exact ⟨fun _ he => (by cases he), fun _ he => (by cases List.mem_singleton.1 he; trivial)⟩
  · cases List.mem_singleton.1 hf
    refine ⟨fun _ he => (by cases List.mem_singleton.1 he; trivial), fun _ he => ?_⟩
    rcases List.mem_cons.1 he with rfl | he
    · trivial
    · cases List.mem_singleton.1 he
      trivial

/-- The later fragment gives `Query.page`, in the place where the earlier
one had it. -/
theorem merge_entrywise_pages :
    (∀ f ∈ pageFragments, f.WellFormed ∧ f.type.AllMaps ∧ f.resolver.AllMaps)
      ∧ SectionMap.MergedFrom (pageFragments.map resolver) (merge pageFragments).resolver
      ∧ (merge pageFragments).resolver.fieldsOf (.ofText "Query")
          = [("page", resolverEntry "cached" 1), ("pages", resolverEntry "all" 0),
              ("draft", resolverEntry "draft" 1)] :=
  ⟨wellFormed_pageFragments, (merge_entrywise wellFormed_pageFragments).2.2.2.2.1, rfl⟩

end Fragment

end ModelSchema
