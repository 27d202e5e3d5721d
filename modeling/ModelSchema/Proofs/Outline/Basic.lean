/-
Outlines: what a generated fragment holds, before it is text. An outline
keeps the declarations of a fragment and the fields that it puts to the
two root types; a fragment renders an outline if its texts, joined, are
those of the outline. Merging outlines is merging the fragments that
render them (`Renders.merge`).
-/
import Mathlib.Data.List.Forall2
import ModelSchema.Proofs.Merge.Basic
import ModelSchema.Proofs.Outline.Declaration

namespace ModelSchema

open Declaration (Field)

-- ============================================================== outlines

/-- What a generated fragment holds: its declarations, the fields of the
root types, and the names of the object types that it tells. -/
structure Outline where
  declarations : List Declaration := []
  queries : List Field := []
  mutations : List Field := []
  objectTypes : List Key := []

namespace Outline

/-- The outline of nothing. -/
def empty : Outline := {}

/-- Outlines merged into one, in order. -/
def merge (os : List Outline) : Outline :=
  { declarations := os.flatMap declarations
    queries := os.flatMap queries
    mutations := os.flatMap mutations
    objectTypes := Morph.uniqueKeys (os.flatMap objectTypes) }

/-- The names that an outline refers to. -/
def references (o : Outline) : List Value :=
  o.declarations.flatMap Declaration.references ++ o.queries.flatMap Field.references
    ++ o.mutations.flatMap Field.references

theorem mem_references {o : Outline} {n : Value} :
    n ∈ o.references ↔ (∃ d ∈ o.declarations, n ∈ d.references)
      ∨ (∃ f ∈ o.queries, n ∈ f.references) ∨ ∃ f ∈ o.mutations, n ∈ f.references := by
  simp only [references, List.mem_append, List.mem_flatMap, or_assoc]

/-- A fragment is the text of an outline. -/
structure Renders (o : Outline) (f : Fragment) : Prop where
  definition : Joined "\n\n" f.definition (o.declarations.map Declaration.text)
  query : Joined "\n" f.query (o.queries.map Field.line)
  mutation : Joined "\n" f.mutation (o.mutations.map Field.line)
  objectTypes : f.objectTypes = o.objectTypes

/-- Merged outlines are rendered by the merged fragments. -/
theorem Renders.merge {os : List Outline} {fs : List Fragment}
    (h : List.Forall₂ Renders os fs) : (merge os).Renders (Fragment.merge fs) := by
  have rows : ∀ {sep : String} {α : Type} (part : Outline → List α) (text : α → String)
      (texts : Fragment → List String),
      (∀ o f, Renders o f → Joined sep (texts f) ((part o).map text)) →
      Joined sep (fs.flatMap texts) ((os.flatMap part).map text) := by
    intro sep α part text texts row
    induction h with
    | nil => exact Joined.refl sep []
    | cons hrow _ ih =>
        rw [List.flatMap_cons, List.flatMap_cons, List.map_append]
        exact (row _ _ hrow).append ih
  refine ⟨?_, ?_, ?_, ?_⟩
  · rw [Fragment.merge_definition]
    exact rows declarations Declaration.text Fragment.definition fun _ _ hrow => hrow.definition
  · rw [Fragment.merge_query]
    exact rows queries Field.line Fragment.query fun _ _ hrow => hrow.query
  · rw [Fragment.merge_mutation]
    exact rows mutations Field.line Fragment.mutation fun _ _ hrow => hrow.mutation
  · rw [Fragment.merge_objectTypes]
    refine congrArg Morph.uniqueKeys ?_
    clear rows
    induction h with
    | nil => rfl
    | cons hrow _ ih => rw [List.flatMap_cons, List.flatMap_cons, ih, hrow.objectTypes]

/-- Nothing is rendered by the fragment without contents. -/
theorem renders_empty : Renders empty {} :=
  ⟨Joined.refl _ _, Joined.refl _ _, Joined.refl _ _, rfl⟩

/-- An outline of nothing adds nothing. -/
theorem merge_append_empty (os : List Outline) : merge (os ++ [empty]) = merge os := by
  unfold merge
  simp [empty]

end Outline

end ModelSchema
