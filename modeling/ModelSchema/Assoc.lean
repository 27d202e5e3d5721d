/-
Ordered maps as lists of pairs. A key keeps the place and the form in
which it was first put; putting it again replaces its value there. Keys
may be the same without being identical, so look-up goes by `==`.
-/
namespace ModelSchema

namespace Assoc

variable {κ : Type} {α : Type} [BEq κ]

/-- Puts a value under a key: in place if the key is there, else at the
end. -/
def put (k : κ) (v : α) : List (κ × α) → List (κ × α)
  | [] => [(k, v)]
  | (k', v') :: rest => if k' == k then (k', v) :: rest else (k', v') :: put k v rest

/-- The value under a key. -/
def get? (m : List (κ × α)) (k : κ) : Option α := (m.find? fun e => e.1 == k).map Prod.snd

/-- Whether a key is there. -/
def has (m : List (κ × α)) (k : κ) : Bool := m.any fun e => e.1 == k

/-- Puts all pairs of a list, in order. -/
def putAll (m : List (κ × α)) (pairs : List (κ × α)) : List (κ × α) :=
  pairs.foldl (fun acc e => put e.1 e.2 acc) m

/-- The map of a list of pairs, where later pairs win. -/
def ofPairs (pairs : List (κ × α)) : List (κ × α) := putAll [] pairs

-- ===================================================== what put does

@[simp] theorem get?_nil (k : κ) : get? ([] : List (κ × α)) k = none := rfl

theorem get?_cons (e : κ × α) (m : List (κ × α)) (k : κ) :
    get? (e :: m) k = if e.1 == k then some e.2 else get? m k := by
  by_cases h : (e.1 == k) = true <;> simp [get?, h]

/-- The keys after a put: as before if the key is there, else one more at
the end. -/
theorem keys_put (k : κ) (v : α) (m : List (κ × α)) :
    (put k v m).map Prod.fst
      = if has m k then m.map Prod.fst else m.map Prod.fst ++ [k] := by
  induction m with
  | nil => simp [put, has]
  | cons e m ih =>
      by_cases h : (e.1 == k) = true
      · simp [put, h, has]
      · by_cases hm : has m k = true
        · have hc : has (e :: m) k = true := by simpa [has] using Or.inr (by simpa [has] using hm)
          rw [if_pos hm] at ih
          simp [put, h, ih, hc]
        · have hc : ¬has (e :: m) k = true := by
            intro hc
            rcases (by simpa [has] using hc : (e.1 == k) = true ∨ _) with h' | h'
            · exact h h'
            · exact hm (by simpa [has] using h')
          rw [if_neg hm] at ih
          simp [put, h, ih, hc]

/-- Whether a key is there goes by the keys alone. -/
theorem has_eq_any_keys (m : List (κ × α)) (k : κ) :
    has m k = (m.map Prod.fst).any fun k' => k' == k := by
  induction m with
  | nil => rfl
  | cons e m ih =>
      simp only [has, List.any_cons, List.map_cons] at ih ⊢
      rw [ih]

/-- Nothing is found under exactly the keys that are not there. -/
theorem get?_eq_none_iff (m : List (κ × α)) (k : κ) : get? m k = none ↔ has m k = false := by
  induction m with
  | nil => simp [has]
  | cons e m ih =>
      by_cases h : (e.1 == k) = true
      · simp [get?_cons, has, h]
      · rw [get?_cons, if_neg h, ih]
        simp [has, h]

/-- What is found under a key is the value of a pair with that key. -/
theorem mem_of_get?_eq_some {m : List (κ × α)} {k : κ} {v : α} (h : get? m k = some v) :
    ∃ k', (k', v) ∈ m ∧ (k' == k) = true := by
  obtain ⟨e, he, rfl⟩ := Option.map_eq_some_iff.1 h
  have hk : (e.1 == k) = true := List.find?_some (p := fun e : κ × α => e.1 == k) he
  exact ⟨e.1, List.mem_of_find?_eq_some he, hk⟩

/-- A pair of a map that something is put to was there before, or holds
what is put. -/
theorem mem_put {k k' : κ} {v v' : α} {m : List (κ × α)} (h : (k', v') ∈ put k v m) :
    (k', v') ∈ m ∨ v' = v := by
  induction m with
  | nil =>
      rw [put, List.mem_singleton] at h
      exact Or.inr (congrArg Prod.snd h)
  | cons e m ih =>
      rw [put] at h
      split at h
      · rcases List.mem_cons.1 h with h | h
        · exact Or.inr (congrArg Prod.snd h)
        · exact Or.inl (List.mem_cons_of_mem _ h)
      · rcases List.mem_cons.1 h with h | h
        · exact Or.inl (h ▸ List.mem_cons_self)
        · exact (ih h).imp_left (List.mem_cons_of_mem _)

/-- Whether no two keys of a map are the same. -/
def Distinct (m : List (κ × α)) : Prop :=
  (m.map Prod.fst).Pairwise fun k k' => (k == k') = false

/-- No two keys are the same after a put if none were before. -/
theorem distinct_put {m : List (κ × α)} (k : κ) (v : α) (h : Distinct m) :
    Distinct (put k v m) := by
  unfold Distinct at *
  rw [keys_put]
  split
  · exact h
  · next hk =>
      rw [List.pairwise_append]
      refine ⟨h, List.pairwise_singleton _ _, ?_⟩
      intro a ha b hb
      rw [List.mem_singleton] at hb
      subst hb
      have hn : has m b = false := by simpa using hk
      rw [has_eq_any_keys, List.any_eq_false] at hn
      simpa using hn a ha

-- ======================================================== what is found

section

variable [EquivBEq κ]

/-- What is there under a key is there under every form of it. -/
theorem has_congr {k k' : κ} (h : (k == k') = true) (m : List (κ × α)) : has m k = has m k' :=
  congrArg m.any (funext fun _ => BEq.congr_right h)

theorem get?_put_self (k : κ) (v : α) (m : List (κ × α)) :
    get? (put k v m) k = some v := by
  induction m with
  | nil => simp [put, get?_cons]
  | cons e m ih => by_cases h : (e.1 == k) = true <;> simp [put, h, get?_cons, ih]

theorem get?_put_of_bne {k k' : κ} (h : (k == k') = false) (v : α) (m : List (κ × α)) :
    get? (put k v m) k' = get? m k' := by
  induction m with
  | nil => simp [put, get?_cons, h]
  | cons e m ih =>
      by_cases hk : (e.1 == k) = true
      · have : (e.1 == k') = false := by rw [BEq.congr_left hk, h]
        simp [put, hk, get?_cons, this]
      · simp [put, hk, get?_cons, ih]

/-- A put is seen under its own key and under no other. -/
theorem get?_put (k k' : κ) (v : α) (m : List (κ × α)) :
    get? (put k v m) k' = if k == k' then some v else get? m k' := by
  by_cases h : (k == k') = true
  · rw [if_pos h]
    induction m with
    | nil => simp [put, get?_cons, h]
    | cons e m ih =>
        by_cases hk : (e.1 == k) = true
        · have : (e.1 == k') = true := PartialEquivBEq.trans hk h
          simp [put, hk, get?_cons, this]
        · have : ¬(e.1 == k') = true := fun he =>
            hk (PartialEquivBEq.trans he (PartialEquivBEq.symm h))
          simp [put, hk, get?_cons, this, ih]
  · rw [if_neg h, get?_put_of_bne (by simpa using h)]

end

section

variable [LawfulBEq κ]

theorem has_iff_mem_keys (m : List (κ × α)) (k : κ) :
    has m k = true ↔ k ∈ m.map Prod.fst := by
  simp [has]

end

-- ======================================================= many at once

@[simp] theorem putAll_nil (m : List (κ × α)) : putAll m [] = m := rfl

@[simp] theorem putAll_cons (m : List (κ × α)) (e : κ × α) (pairs : List (κ × α)) :
    putAll m (e :: pairs) = putAll (put e.1 e.2 m) pairs := rfl

/-- What a map of pairs holds, one of the pairs holds. -/
theorem mem_putAll {m pairs : List (κ × α)} {k : κ} {v : α} (h : (k, v) ∈ putAll m pairs) :
    (k, v) ∈ m ∨ ∃ e ∈ pairs, e.2 = v := by
  induction pairs generalizing m with
  | nil => exact Or.inl h
  | cons e pairs ih =>
      rcases ih h with h | ⟨e', he', rfl⟩
      · exact (mem_put h).imp_right fun hv => ⟨e, List.mem_cons_self, hv.symm⟩
      · exact Or.inr ⟨e', List.mem_cons_of_mem _ he', rfl⟩

theorem putAll_append (m ps qs : List (κ × α)) :
    putAll m (ps ++ qs) = putAll (putAll m ps) qs := List.foldl_append

end Assoc

end ModelSchema
