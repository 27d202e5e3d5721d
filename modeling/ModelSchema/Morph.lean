/-
The union of everything that a polymorphic relation may hold: all object
types of a schema but the root of its queries. Its type rule reads the
name of the type from the value itself.
-/
import ModelSchema.Graphql.Parser
import ModelSchema.Text.Blank
import ModelSchema.Value.Reading

namespace ModelSchema.Morph

/-- The name of the union. -/
def unionName : String := "Morph"

/-- The name of the root type of queries. -/
def rootQuery : String := "Query"

section

variable {κ : Type} [BEq κ]

/-- Keeps the first of equal names, given those that are kept already. -/
def firstsAfter (seen : List κ) : List κ → List κ
  | [] => []
  | n :: rest =>
      if seen.any (· == n) then firstsAfter seen rest
      else n :: firstsAfter (n :: seen) rest

/-- The names that are kept are those that were not kept before. -/
theorem any_firstsAfter [EquivBEq κ] (n : κ) (seen names : List κ) :
    (firstsAfter seen names).any (· == n)
      = (names.any (· == n) && !seen.any (· == n)) := by
  induction names generalizing seen with
  | nil => simp [firstsAfter]
  | cons m rest ih =>
      by_cases hmn : (m == n) = true
      · have same : seen.any (· == m) = seen.any (· == n) :=
          congrArg seen.any (funext fun k => BEq.congr_right hmn)
        by_cases hm : seen.any (· == m) = true
        · have hn : seen.any (· == n) = true := same ▸ hm
          rw [firstsAfter, if_pos hm, ih, hn]
          simp
        · have hn : seen.any (· == n) = false := by
            rw [← same]
            simpa using hm
          rw [firstsAfter, if_neg hm]
          simp [hmn, hn]
      · by_cases hm : seen.any (· == m) = true
        · rw [firstsAfter, if_pos hm, ih]
          simp [hmn]
        · rw [firstsAfter, if_neg hm, List.any_cons, ih]
          simp [hmn]

/-- No two names that are kept are the same. -/
theorem pairwise_firstsAfter [EquivBEq κ] (seen names : List κ) :
    (firstsAfter seen names).Pairwise fun m n => (m == n) = false := by
  induction names generalizing seen with
  | nil => exact List.Pairwise.nil
  | cons m rest ih =>
      rw [firstsAfter]
      split
      · exact ih seen
      · refine List.pairwise_cons.2 ⟨fun n hn => ?_, ih _⟩
        have kept : (firstsAfter (m :: seen) rest).any (· == n) = true :=
          List.any_eq_true.2 ⟨n, hn, BEq.rfl⟩
        rw [any_firstsAfter] at kept
        simp at kept
        exact kept.2.1

end

/-- Names of types without repetition, in the order in which they first
occur, and without the root of queries. -/
def uniqueKeys (names : List Key) : List Key := firstsAfter [Key.ofText rootQuery] names

/-- The same of texts. -/
def uniqueNames (names : List String) : List String := firstsAfter [rootQuery] names

/-- Every name but the root of queries is kept. -/
theorem any_uniqueKeys (n : Key) (names : List Key) :
    (uniqueKeys names).any (· == n)
      = (names.any (· == n) && !(Key.ofText rootQuery == n)) := by
  rw [uniqueKeys, any_firstsAfter]
  simp

/-- The root of queries is not kept. -/
theorem bne_of_mem_uniqueKeys {k : Key} {names : List Key} (h : k ∈ uniqueKeys names) :
    (Key.ofText rootQuery == k) = false := by
  have hmem : (uniqueKeys names).any (· == k) = true := List.any_eq_true.2 ⟨k, h, BEq.rfl⟩
  rw [any_uniqueKeys] at hmem
  simpa using ((Bool.and_eq_true _ _).mp hmem).2

/-- No name is kept if all are the root of queries. -/
theorem uniqueKeys_eq_nil_iff (names : List Key) :
    uniqueKeys names = [] ↔ ∀ k ∈ names, (Key.ofText rootQuery == k) = true := by
  constructor
  · intro hnil k hk
    have hnone : (uniqueKeys names).any (· == k) = false := by
      rw [hnil]
      rfl
    have hmem : names.any (· == k) = true := List.any_eq_true.2 ⟨k, hk, BEq.rfl⟩
    rw [any_uniqueKeys, hmem] at hnone
    simpa using hnone
  · intro hall
    rw [List.eq_nil_iff_forall_not_mem]
    intro k hk
    have hmem : (uniqueKeys names).any (· == k) = true := List.any_eq_true.2 ⟨k, hk, BEq.rfl⟩
    rw [any_uniqueKeys] at hmem
    obtain ⟨k', hk', hsame⟩ := List.any_eq_true.1 ((Bool.and_eq_true _ _).mp hmem).1
    have hroot := PartialEquivBEq.trans (hall k' hk') hsame
    rw [bne_of_mem_uniqueKeys hk] at hroot
    cases hroot

/-- What is kept are roots of queries only if all names are. -/
theorem forall_uniqueKeys_iff (names : List Key) :
    (∀ k ∈ uniqueKeys names, (Key.ofText rootQuery == k) = true)
      ↔ ∀ k ∈ names, (Key.ofText rootQuery == k) = true := by
  rw [← uniqueKeys_eq_nil_iff names]
  constructor
  · intro hall
    rw [List.eq_nil_iff_forall_not_mem]
    intro k hk
    have hroot := hall k hk
    rw [bne_of_mem_uniqueKeys hk] at hroot
    cases hroot
  · intro hnil
    rw [hnil]
    exact fun k hk => (by cases hk)

/-- Every name but the root of queries is kept. -/
theorem mem_uniqueNames {n : String} {names : List String} :
    n ∈ uniqueNames names ↔ n ∈ names ∧ n ≠ rootQuery := by
  have h := any_firstsAfter n [rootQuery] names
  have hk : (firstsAfter [rootQuery] names).any (· == n) = true ↔ n ∈ uniqueNames names := by
    simp [uniqueNames]
  have hn : names.any (· == n) = true ↔ n ∈ names := by simp
  rw [← hk, h, Bool.and_eq_true, hn, List.any_cons, List.any_nil, Bool.or_false,
    Bool.not_eq_true', beq_eq_false_iff_ne]
  exact and_congr_right fun _ => ne_comm

/-- The names of the object types that a text defines, the root of queries
left out. A text of blanks alone defines none. -/
def objectTypes (s : String) : Except Fault (List String) :=
  if Text.isBlankText s then .ok []
  else
    match Graphql.parse s with
    | .ok d => .ok (uniqueNames (Graphql.Document.objectTypeNames d))
    | .error e => .error (.badSyntax e)

/-- The type name of a polymorphic value: its `kind`, else its
`__contentType`, else none. -/
def resolveType (v : Value) : Value :=
  let read (fields : List (String × Value)) :=
    ((Value.getD fields "kind").orElse (Value.getD fields "__contentType")).orElse .null
  match v with
  | .map entries => read entries
  | .record _ fields => read fields
  | _ => .null

/-- The texts of names, which have to be texts to be named in a union. -/
def memberNames (members : List Key) : Except Fault (List String) :=
  members.mapM fun k =>
    match k.value with
    | .str name => .ok name
    | _ => .error .wrongKind

/-- The definition of the union; none without members. -/
def definition (members : List Key) : Except Fault String := do
  let names ← memberNames members
  return if names.isEmpty then ""
    else "union " ++ unionName ++ " = " ++ String.intercalate " | " names

end ModelSchema.Morph
