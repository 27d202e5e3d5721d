/-
What declaring enum types comes to. Uses of enum types, each with a name
and values, are declared one after another. Of all uses of a name only the
first is written (`fresh_after`), and every use is told of whose values
are not those of the first (`redeclarations_told`): what is written and
told depends on the uses alone, not on the table that is kept of them.
-/
import ModelSchema.Proofs.Merge.Ordered
import ModelSchema.Proofs.Names.Entries
import ModelSchema.Proofs.References.Declared

namespace ModelSchema

namespace Enums

/-- The first use of each name. -/
def firstUses : List (Key × List Value) → List (Key × List Value)
  | [] => []
  | e :: rest => e :: (firstUses rest).filter fun e' => !(e.1 == e'.1)

/-- The first use of each name that has not been used before. -/
def newUses (used uses : List (Key × List Value)) : List (Key × List Value) :=
  (firstUses uses).filter fun e => !Assoc.has used e.1

/-- What is told of a use of a name: that it has other values than the
first one, if it has. -/
def redeclaration? (uses : List (Key × List Value)) (e : Key × List Value) : Option Notice :=
  (Assoc.get? uses e.1).bind fun first =>
    if texts first = texts e.2 then none
    else some (.enumAlreadyDeclared e.1.value (texts first) (texts e.2))

/-- What is told of uses. -/
def redeclarations (uses : List (Key × List Value)) : List Notice :=
  uses.filterMap (redeclaration? uses)

variable (uses : List (Key × List Value))

-- ============================================================== first uses

/-- First uses are of different names. -/
theorem distinct_firstUses : Assoc.Distinct (firstUses uses) := by
  induction uses with
  | nil => exact Assoc.distinct_nil
  | cons e rest ih =>
      refine Assoc.distinct_cons_iff.2 ⟨fun k hk => ?_, ?_⟩
      · obtain ⟨e', he', rfl⟩ := List.mem_map.1 hk
        simpa using (List.mem_filter.1 he').2
      · unfold Assoc.Distinct at ih ⊢
        rw [List.pairwise_map] at ih ⊢
        exact ih.filter _

/-- What is first used under a name is there under the name. -/
theorem get?_firstUses (k : Key) : Assoc.get? (firstUses uses) k = Assoc.get? uses k := by
  induction uses with
  | nil => rfl
  | cons e rest ih =>
      rw [firstUses, Assoc.get?_cons, Assoc.get?_cons]
      by_cases hk : (e.1 == k) = true
      · rw [if_pos hk, if_pos hk]
      · -- what is dropped is of the name of `e`, so not of this one
        rw [if_neg hk, if_neg hk, ← ih]
        unfold Assoc.get?
        rw [List.find?_filter]
        refine congrArg (Option.map Prod.snd) (congrArg (List.find? · _) (funext fun e' => ?_))
        by_cases he' : (e'.1 == k) = true
        · have hother : (e.1 == e'.1) = false := by
            rw [BEq.congr_right he']
            exact Bool.eq_false_iff.2 hk
          simp [he', hother]
        · simp [he']

-- ========================================================== what is written

/-- The uses that are written are the first ones of names that are not
declared. -/
theorem fresh_eq (declared : Declared) :
    fresh declared uses = (firstUses uses).filter fun e => !Assoc.has declared e.1 := by
  induction uses generalizing declared with
  | nil => rfl
  | cons e rest ih =>
      have hrest : (firstUses rest).filter
            (fun e' => !Assoc.has (declare declared e.1 e.2).declared e'.1)
          = ((firstUses rest).filter fun e' => !(e.1 == e'.1)).filter
              fun e' => !Assoc.has declared e'.1 := by
        rw [List.filter_filter]
        refine List.filter_congr fun e' _ => ?_
        rw [has_declare]
        simp [Bool.not_or]
      rw [fresh, ih, hrest, firstUses, List.filter_cons]
      cases Assoc.has declared e.1 <;> rfl

/-- After other uses those are written that are the first of their names. -/
theorem fresh_after (used : List (Key × List Value)) :
    fresh (after [] used) uses = newUses used uses := by
  rw [fresh_eq]
  refine List.filter_congr fun e _ => ?_
  rw [has_after]
  rfl

/-- Uses after others add the first uses of new names. -/
theorem firstUses_append (used : List (Key × List Value)) :
    firstUses (used ++ uses) = firstUses used ++ newUses used uses := by
  have hall : ∀ uses, fresh [] uses = firstUses uses := by
    intro uses
    rw [fresh_eq]
    exact List.filter_eq_self.2 fun _ _ => rfl
  rw [← hall, ← hall, ← fresh_after, fresh_append]

-- ============================================================= what is told

/-- A name is declared with the texts of its first values. -/
theorem get?_declare (declared : Declared) (e : Key × List Value) (k : Key) :
    Assoc.get? (declare declared e.1 e.2).declared k
      = (Assoc.get? declared k).or (if e.1 == k then some (texts e.2) else none) := by
  cases hhas : Assoc.has declared e.1 with
  | true =>
      rw [(declare_of_has hhas e.2).1]
      by_cases hk : (e.1 == k) = true
      · have hsome : Assoc.get? declared k ≠ none := by
          rw [ne_eq, Assoc.get?_eq_none_iff, ← Assoc.has_congr hk, hhas]
          exact Bool.noConfusion
        obtain ⟨first, hfirst⟩ := Option.ne_none_iff_exists'.1 hsome
        rw [hfirst, Option.some_or]
      · rw [if_neg hk, Option.or_none]
  | false =>
      rw [(declare_of_not_has hhas e.2).1, Assoc.get?_put]
      by_cases hk : (e.1 == k) = true
      · have hnone : Assoc.get? declared k = none := by
          rw [Assoc.get?_eq_none_iff, ← Assoc.has_congr hk, hhas]
        rw [if_pos hk, if_pos hk, hnone, Option.none_or]
      · rw [if_neg hk, if_neg hk, Option.or_none]

theorem get?_after (declared : Declared) (k : Key) :
    Assoc.get? (after declared uses) k
      = (Assoc.get? declared k).or ((Assoc.get? uses k).map texts) := by
  induction uses generalizing declared with
  | nil => exact (Option.or_none).symm
  | cons e rest ih =>
      rw [after, ih, get?_declare, Option.or_assoc, Assoc.get?_cons]
      by_cases hk : (e.1 == k) = true
      · rw [if_pos hk, if_pos hk, Option.some_or, Option.map_some]
      · rw [if_neg hk, if_neg hk, Option.none_or]

/-- Declaring a name again tells of other values than it is declared
with. -/
theorem redeclarations_declare (declared : Declared) (e : Key × List Value) :
    (declare declared e.1 e.2).notices.filter Notice.isRedeclaration
      = ((Assoc.get? (declare declared e.1 e.2).declared e.1).bind fun first =>
          if first = texts e.2 then none
          else some (.enumAlreadyDeclared e.1.value first (texts e.2))).toList := by
  rw [get?_declare, if_pos BEq.rfl]
  unfold declare
  cases Assoc.get? declared e.1 with
  | none =>
      -- the first use of a name may tell of its values, but not of another use
      have hnone : (definitionNotices e.1.value e.2).filter Notice.isRedeclaration = [] := by
        rw [List.filter_eq_nil_iff]
        intro n hn
        rcases List.mem_append.1 hn with hn | hn
        · obtain ⟨v, _, rfl⟩ := List.mem_map.1 hn
          exact Bool.false_ne_true
        · split at hn
          · rw [List.mem_singleton.1 hn]
            exact Bool.false_ne_true
          · cases hn
      dsimp only
      rw [hnone, Option.none_or, Option.bind_some, if_pos rfl]
      rfl
  | some first =>
      dsimp only
      rw [Option.some_or, Option.bind_some]
      split <;> rfl

/-- A use is told of if it has other values than its name is declared with
in the end, since a name is never declared anew. -/
theorem redeclarations_told_eq (declared : Declared) :
    (told declared uses).filter Notice.isRedeclaration
      = uses.filterMap fun e => (Assoc.get? (after declared uses) e.1).bind fun first =>
          if first = texts e.2 then none
          else some (.enumAlreadyDeclared e.1.value first (texts e.2)) := by
  induction uses generalizing declared with
  | nil => rfl
  | cons e rest ih =>
      have hkept : Assoc.get? (after (declare declared e.1 e.2).declared rest) e.1
          = Assoc.get? (declare declared e.1 e.2).declared e.1 := by
        rw [get?_after, get?_declare, if_pos BEq.rfl]
        cases Assoc.get? declared e.1 <;> rfl
      rw [told, List.filter_append, redeclarations_declare, ih, List.filterMap_cons, after, hkept]
      cases Option.bind (Assoc.get? (declare declared e.1 e.2).declared e.1) _ <;> rfl

theorem told_append (declared : Declared) (used : List (Key × List Value)) :
    told declared (used ++ uses) = told declared used ++ told (after declared used) uses := by
  induction used generalizing declared with
  | nil => rfl
  | cons e used ih => rw [List.cons_append, told, told, ih, after, List.append_assoc]

/-- What is told of uses goes by the first use of each name. -/
theorem redeclarations_told :
    (told [] uses).filter Notice.isRedeclaration = redeclarations uses := by
  rw [redeclarations_told_eq]
  refine List.filterMap_congr fun e _ => ?_
  rw [get?_after, Assoc.get?_nil, Option.none_or, redeclaration?]
  cases Assoc.get? uses e.1 <;> rfl

end Enums

end ModelSchema
