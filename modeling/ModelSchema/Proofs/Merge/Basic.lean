/-
What a merged fragment holds, field by field: its texts are those of the
merged fragments one after another, and each of its maps is folded out of
theirs on its own.
-/
import ModelSchema.Fragment.Merge

namespace ModelSchema.Fragment

theorem foldl_append_fields (fs : List Fragment) (start : Fragment) :
    (fs.foldl append start).definition = start.definition ++ fs.flatMap definition
      ∧ (fs.foldl append start).query = start.query ++ fs.flatMap query
      ∧ (fs.foldl append start).mutation = start.mutation ++ fs.flatMap mutation
      ∧ (fs.foldl append start).objectTypes = start.objectTypes ++ fs.flatMap objectTypes := by
  induction fs generalizing start with
  | nil =>
      simp only [List.foldl_nil, List.flatMap_nil, List.append_nil]
      exact ⟨trivial, trivial, trivial, trivial⟩
  | cons f fs ih =>
      obtain ⟨hdefinition, hquery, hmutation, htypes⟩ := ih (start.append f)
      simp only [List.foldl_cons, List.flatMap_cons, ← List.append_assoc]
      exact ⟨hdefinition, hquery, hmutation, htypes⟩

theorem merge_definition (fs : List Fragment) :
    (merge fs).definition = fs.flatMap definition := (foldl_append_fields fs empty).1

theorem merge_query (fs : List Fragment) : (merge fs).query = fs.flatMap query :=
  (foldl_append_fields fs empty).2.1

theorem merge_mutation (fs : List Fragment) : (merge fs).mutation = fs.flatMap mutation :=
  (foldl_append_fields fs empty).2.2.1

/-- A merged fragment tells each object type once. -/
theorem merge_objectTypes (fs : List Fragment) :
    (merge fs).objectTypes = Morph.uniqueKeys (fs.flatMap objectTypes) :=
  congrArg Morph.uniqueKeys (foldl_append_fields fs empty).2.2.2

theorem foldl_append_maps (fs : List Fragment) (start : Fragment) :
    (fs.foldl append start).type = (fs.map type).foldl SectionMap.merge start.type
      ∧ (fs.foldl append start).resolver = (fs.map resolver).foldl SectionMap.merge start.resolver
      ∧ (fs.foldl append start).sources = (fs.map sources).foldl Assoc.putAll start.sources := by
  induction fs generalizing start with
  | nil => exact ⟨rfl, rfl, rfl⟩
  | cons f fs ih => exact ih (start.append f)

theorem merge_type (fs : List Fragment) :
    (merge fs).type = (fs.map type).foldl SectionMap.merge [] := (foldl_append_maps fs empty).1

theorem merge_resolver (fs : List Fragment) :
    (merge fs).resolver = (fs.map resolver).foldl SectionMap.merge [] :=
  (foldl_append_maps fs empty).2.1

theorem merge_sources (fs : List Fragment) :
    (merge fs).sources = (fs.map sources).foldl Assoc.putAll [] :=
  (foldl_append_maps fs empty).2.2

end ModelSchema.Fragment
