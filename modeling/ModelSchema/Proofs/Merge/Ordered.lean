/-
Ordered maps by their two sides: the keys in the order in which they were
first put, and what is found under each. Putting one value after another,
whatever decides what is put, appends the keys that are new
(`keys_foldl_put`), and a map without repeated keys is known once its keys
and its look-ups are (`eq_of_keys_of_get?`). So a law about merged maps
falls apart into one about lists of keys and one about a single key.
-/
import ModelSchema.Fragment.Merge

namespace ModelSchema

-- ======================================================= first appearances

namespace Morph

variable {κ : Type} [BEq κ]

/-- What is kept goes by which names count as kept before, not by how they
are listed. -/
theorem firstsAfter_congr {seen seen' : List κ}
    (h : ∀ n, seen.any (· == n) = seen'.any (· == n)) (names : List κ) :
    firstsAfter seen names = firstsAfter seen' names := by
  induction names generalizing seen seen' with
  | nil => rfl
  | cons m rest ih =>
      have hcons : ∀ n, (m :: seen).any (· == n) = (m :: seen').any (· == n) := by
        intro n
        rw [List.any_cons, List.any_cons, h]
      rw [firstsAfter, firstsAfter, h, ih h, ih hcons]

theorem firstsAfter_append (seen names more : List κ) :
    firstsAfter seen (names ++ more)
      = firstsAfter seen names ++ firstsAfter (seen ++ firstsAfter seen names) more := by
  induction names generalizing seen with
  | nil => simp [firstsAfter]
  | cons m rest ih =>
      rw [List.cons_append, firstsAfter, firstsAfter]
      split
      · exact ih seen
      · rw [ih, List.cons_append]
        refine congrArg (m :: firstsAfter (m :: seen) rest ++ ·) (firstsAfter_congr ?_ _)
        intro n
        simp only [List.any_append, List.any_cons]
        cases m == n <;> simp

/-- Keeping the first of equal names, after others, is dropping the others
and then every repetition. -/
theorem firstsAfter_eq_eraseDups [EquivBEq κ] (seen names : List κ) :
    firstsAfter seen names = (names.filter fun n => !seen.any (· == n)).eraseDups := by
  induction names generalizing seen with
  | nil => rfl
  | cons m rest ih =>
      rw [firstsAfter, List.filter_cons]
      by_cases hm : seen.any (· == m) = true
      · simp only [hm, if_true, Bool.not_true, Bool.false_eq_true, if_false]
        exact ih seen
      · have hnew : (!seen.any (· == m)) = true := by simpa using hm
        rw [if_neg hm, if_pos hnew, List.eraseDups_cons, ih, List.filter_filter]
        refine congrArg (fun l => m :: List.eraseDups l) (List.filter_congr fun n _ => ?_)
        rw [List.any_cons, Bool.not_or, BEq.comm]

theorem firstsAfter_nil [EquivBEq κ] (names : List κ) :
    firstsAfter [] names = names.eraseDups := by
  rw [firstsAfter_eq_eraseDups]
  exact congrArg List.eraseDups (List.filter_eq_self.2 fun _ _ => rfl)

/-- Names of which no two are the same and none was kept before are all
kept. -/
theorem firstsAfter_eq_self {seen names : List κ}
    (hseen : ∀ n ∈ names, seen.any (· == n) = false)
    (h : names.Pairwise fun m n => (m == n) = false) : firstsAfter seen names = names := by
  induction names generalizing seen with
  | nil => rfl
  | cons m rest ih =>
      obtain ⟨hm, hrest⟩ := List.pairwise_cons.1 h
      rw [firstsAfter, if_neg (by rw [hseen m List.mem_cons_self]; exact Bool.false_ne_true)]
      refine congrArg (m :: ·) (ih (fun n hn => ?_) hrest)
      rw [List.any_cons, hm n hn, Bool.false_or]
      exact hseen n (List.mem_cons_of_mem _ hn)

/-- Names that are kept twice over are kept as by the second pass alone, if
it keeps no more than the first. -/
theorem firstsAfter_firstsAfter [EquivBEq κ] {seen seen' : List κ}
    (h : ∀ n, seen.any (· == n) = true → seen'.any (· == n) = true) (names : List κ) :
    firstsAfter seen' (firstsAfter seen names) = firstsAfter seen' names := by
  induction names generalizing seen seen' with
  | nil => rfl
  | cons m rest ih =>
      rw [firstsAfter, firstsAfter]
      by_cases hm : seen.any (· == m) = true
      · rw [if_pos hm, if_pos (h m hm), ih h]
      · rw [if_neg hm, firstsAfter]
        split
        · next hm' =>
            refine ih fun n hn => ?_
            rw [List.any_cons, Bool.or_eq_true] at hn
            rcases hn with hmn | hn
            · rwa [← congrArg seen'.any (funext fun k => BEq.congr_right hmn)]
            · exact h n hn
        · refine congrArg (m :: ·) (ih fun n hn => ?_)
          rw [List.any_cons, Bool.or_eq_true] at hn ⊢
          exact hn.imp_right (h n)

/-- Appending the names that are new is associative. -/
theorem append_firstsAfter_assoc [EquivBEq κ] (a b c : List κ) :
    (a ++ firstsAfter a b) ++ firstsAfter (a ++ firstsAfter a b) c
      = a ++ firstsAfter a (b ++ firstsAfter b c) := by
  rw [firstsAfter_append, firstsAfter_firstsAfter, List.append_assoc]
  intro n hn
  rw [List.any_append, any_firstsAfter, hn]
  cases a.any (· == n) <;> rfl

/-- Names are kept alike under a renaming that keeps them apart. -/
theorem firstsAfter_map {κ' : Type} [BEq κ'] {f : κ → κ'} (hf : ∀ m n, (f m == f n) = (m == n))
    (seen names : List κ) :
    firstsAfter (seen.map f) (names.map f) = (firstsAfter seen names).map f := by
  induction names generalizing seen with
  | nil => rfl
  | cons m rest ih =>
      have hseen : (seen.map f).any (· == f m) = seen.any (· == m) := by
        rw [List.any_map]
        exact congrArg seen.any (funext fun n => hf n m)
      have htail := ih (m :: seen)
      rw [List.map_cons] at htail
      rw [List.map_cons, firstsAfter, firstsAfter, hseen, ih, htail]
      split <;> rfl

/-- Names are made unique alike under such a renaming. -/
theorem eraseDups_map [EquivBEq κ] {κ' : Type} [BEq κ'] [EquivBEq κ'] {f : κ → κ'}
    (hf : ∀ m n, (f m == f n) = (m == n)) (names : List κ) :
    (names.map f).eraseDups = names.eraseDups.map f := by
  rw [← firstsAfter_nil, ← firstsAfter_nil]
  exact firstsAfter_map hf [] names

/-- Names that are made unique are unique. -/
theorem nodup_eraseDups [LawfulBEq κ] (names : List κ) : names.eraseDups.Nodup := by
  rw [← firstsAfter_nil]
  exact (pairwise_firstsAfter [] names).imp fun hne => by simpa using hne

/-- Names of texts are unique as texts are. -/
theorem uniqueKeys_ofText (names : List String) :
    uniqueKeys (names.map Key.ofText) = (uniqueNames names).map Key.ofText :=
  firstsAfter_map Key.ofText_beq [rootQuery] names

/-- Names may be made unique before more are put to them, on either side. -/
theorem uniqueKeys_append_left (names more : List Key) :
    uniqueKeys (uniqueKeys names ++ more) = uniqueKeys (names ++ more) := by
  unfold uniqueKeys
  rw [firstsAfter_append, firstsAfter_append, firstsAfter_firstsAfter]
  exact fun _ h => h

theorem uniqueKeys_append_right (names more : List Key) :
    uniqueKeys (names ++ uniqueKeys more) = uniqueKeys (names ++ more) := by
  unfold uniqueKeys
  rw [firstsAfter_append, firstsAfter_append, firstsAfter_firstsAfter]
  intro n hn
  rw [List.any_append, hn, Bool.true_or]

theorem uniqueKeys_uniqueKeys (names : List Key) :
    uniqueKeys (uniqueKeys names) = uniqueKeys names := by
  have h := uniqueKeys_append_left names []
  rw [List.append_nil, List.append_nil] at h
  exact h

/-- Rows of names that are each the same once they are unique are the same
together. -/
theorem uniqueKeys_flatMap_congr {α : Type} {f g : α → List Key} {as : List α}
    (h : ∀ a ∈ as, uniqueKeys (f a) = uniqueKeys (g a)) :
    uniqueKeys (as.flatMap f) = uniqueKeys (as.flatMap g) := by
  induction as with
  | nil => rfl
  | cons a as ih =>
      have htail := ih fun a' ha' => h a' (List.mem_cons_of_mem a ha')
      rw [List.flatMap_cons, List.flatMap_cons, ← uniqueKeys_append_left, h a List.mem_cons_self,
        uniqueKeys_append_left, ← uniqueKeys_append_right, htail, uniqueKeys_append_right]

end Morph

namespace Assoc

open Morph (firstsAfter firstsAfter_congr firstsAfter_append firstsAfter_eq_self
  append_firstsAfter_assoc)

variable {κ α : Type} [BEq κ]

-- ================================================================== keys

/-- Whatever is put under the keys of a list, those of them that are new
come after the keys that are there. -/
theorem keys_foldl_put (value : List (κ × α) → κ × α → α) (m pairs : List (κ × α)) :
    (pairs.foldl (fun acc e => put e.1 (value acc e) acc) m).map Prod.fst
      = m.map Prod.fst ++ firstsAfter (m.map Prod.fst) (pairs.map Prod.fst) := by
  induction pairs generalizing m with
  | nil => simp [firstsAfter]
  | cons e pairs ih =>
      rw [List.foldl_cons, ih, keys_put, List.map_cons, firstsAfter, ← has_eq_any_keys]
      split
      · rfl
      · rw [List.append_assoc, List.singleton_append]
        refine congrArg (m.map Prod.fst ++ e.1 :: ·) (firstsAfter_congr ?_ _)
        intro n
        rw [List.any_append, List.any_cons, List.any_cons, List.any_nil, Bool.or_false,
          Bool.or_comm]

theorem keys_putAll (m pairs : List (κ × α)) :
    (putAll m pairs).map Prod.fst
      = m.map Prod.fst ++ firstsAfter (m.map Prod.fst) (pairs.map Prod.fst) :=
  keys_foldl_put (fun _ e => e.2) m pairs

/-- Steps that each append the keys that are new append, one after another,
all keys that are new. -/
theorem keys_foldl {step : List (κ × α) → List (κ × α) → List (κ × α)}
    (hstep : ∀ m part, (step m part).map Prod.fst
      = m.map Prod.fst ++ firstsAfter (m.map Prod.fst) (part.map Prod.fst))
    (m : List (κ × α)) (parts : List (List (κ × α))) :
    (parts.foldl step m).map Prod.fst
      = m.map Prod.fst
        ++ firstsAfter (m.map Prod.fst) (parts.flatMap fun part => part.map Prod.fst) := by
  induction parts generalizing m with
  | nil => simp [firstsAfter]
  | cons part parts ih =>
      rw [List.foldl_cons, ih, hstep, List.flatMap_cons, firstsAfter_append, List.append_assoc]

theorem distinct_foldl_put (value : List (κ × α) → κ × α → α) {m : List (κ × α)}
    (pairs : List (κ × α)) (h : Distinct m) :
    Distinct (pairs.foldl (fun acc e => put e.1 (value acc e) acc) m) := by
  induction pairs generalizing m with
  | nil => exact h
  | cons e pairs ih => exact ih (distinct_put e.1 (value m e) h)

theorem distinct_putAll {m : List (κ × α)} (pairs : List (κ × α)) (h : Distinct m) :
    Distinct (putAll m pairs) :=
  distinct_foldl_put (fun _ e => e.2) pairs h

theorem distinct_nil : Distinct ([] : List (κ × α)) := List.Pairwise.nil

theorem distinct_cons_iff {e : κ × α} {m : List (κ × α)} :
    Distinct (e :: m) ↔ (∀ k ∈ m.map Prod.fst, (e.1 == k) = false) ∧ Distinct m := by
  unfold Distinct
  rw [List.map_cons, List.pairwise_cons]

-- ================================================================ look-up

section

variable [EquivBEq κ]

theorem get?_congr {k k' : κ} (h : (k == k') = true) (m : List (κ × α)) :
    get? m k = get? m k' := by
  unfold get?
  congr 2
  funext e
  exact BEq.congr_right h

/-- Under the first key of a map without repeated keys nothing else is
found. -/
theorem get?_tail_eq_none {e : κ × α} {m : List (κ × α)} (h : Distinct (e :: m)) {k : κ}
    (hk : (e.1 == k) = true) : get? m k = none := by
  rw [get?_eq_none_iff, has_eq_any_keys, List.any_eq_false]
  intro k' hk' hsame
  have hne := (distinct_cons_iff.1 h).1 k' hk'
  rw [PartialEquivBEq.trans hk (BEq.symm hsame)] at hne
  cases hne

/-- Where keys are put one after another, each once, a key that is among
them was put when nothing had changed under it yet. -/
theorem get?_foldl_put {value : List (κ × α) → κ × α → α}
    (hvalue : ∀ acc acc' e, get? acc e.1 = get? acc' e.1 → value acc e = value acc' e)
    {m pairs : List (κ × α)} (h : Distinct pairs) (k : κ) :
    get? (pairs.foldl (fun acc e => put e.1 (value acc e) acc) m) k
      = match pairs.find? fun e => e.1 == k with
        | some e => some (value m e)
        | none => get? m k := by
  induction pairs generalizing m with
  | nil => rfl
  | cons e pairs ih =>
      rw [List.foldl_cons, ih (distinct_cons_iff.1 h).2, List.find?_cons]
      by_cases hk : (e.1 == k) = true
      · have hrest : (pairs.find? fun e => e.1 == k) = none := by
          have hnone := get?_tail_eq_none h hk
          rwa [get?, Option.map_eq_none_iff] at hnone
        rw [hrest, hk]
        show get? (put e.1 (value m e) m) k = some (value m e)
        rw [get?_put, if_pos hk]
      · rw [Bool.eq_false_iff.2 hk]
        cases hfind : pairs.find? fun e => e.1 == k with
        | none =>
            show get? (put e.1 (value m e) m) k = get? m k
            rw [get?_put, if_neg hk]
        | some e' =>
            -- what comes later is under another key, so the put is not seen there
            have hsame : (e'.1 == k) = true :=
              List.find?_some (p := fun e : κ × α => e.1 == k) hfind
            refine congrArg some (hvalue _ _ e' ?_)
            rw [get?_congr hsame, get?_congr hsame, get?_put, if_neg hk]

/-- The last of two maps that holds a key decides. -/
theorem get?_putAll {m pairs : List (κ × α)} (h : Distinct pairs) (k : κ) :
    get? (putAll m pairs) k = (get? pairs k).or (get? m k) := by
  have hvalue : ∀ (acc acc' : List (κ × α)) (e : κ × α), get? acc e.1 = get? acc' e.1 →
      (fun _ e => e.2 : List (κ × α) → κ × α → α) acc e = e.2 := fun _ _ _ _ => rfl
  refine (get?_foldl_put hvalue h k).trans ?_
  unfold get?
  cases pairs.find? fun e => e.1 == k <;> rfl

/-- The last of many maps that holds a key decides. -/
theorem get?_foldl_putAll {parts : List (List (κ × α))} (h : ∀ part ∈ parts, Distinct part)
    (m : List (κ × α)) (k : κ) :
    get? (parts.foldl putAll m) k
      = (parts.reverse.findSome? fun part => get? part k).or (get? m k) := by
  induction parts generalizing m with
  | nil => rfl
  | cons part parts ih =>
      rw [List.foldl_cons, ih (fun q hq => h q (List.mem_cons_of_mem _ hq)),
        get?_putAll (h part List.mem_cons_self), List.reverse_cons, List.findSome?_append,
        Option.or_assoc]
      refine congrArg _ (congrArg (Option.or · (get? m k)) ?_)
      cases hpart : get? part k <;> simp [hpart]

/-- A map without repeated keys is known by its keys, in order, and by what
is found under them. -/
theorem eq_of_keys_of_get? {m m' : List (κ × α)} (h : Distinct m)
    (hkeys : m.map Prod.fst = m'.map Prod.fst) (hget : ∀ k, get? m k = get? m' k) : m = m' := by
  induction m generalizing m' with
  | nil =>
      rw [List.map_nil] at hkeys
      rw [List.map_eq_nil_iff.1 hkeys.symm]
  | cons e m ih =>
      obtain ⟨e', rest, rfl⟩ : ∃ e' rest, m' = e' :: rest := by
        cases m' with
        | nil => cases hkeys
        | cons e' rest => exact ⟨e', rest, rfl⟩
      rw [List.map_cons, List.map_cons, List.cons.injEq] at hkeys
      obtain ⟨hhead, htail⟩ := hkeys
      have h' : Distinct (e' :: rest) := by
        unfold Distinct at h ⊢
        rwa [List.map_cons, ← hhead, ← htail]
      have hvalue := hget e.1
      rw [get?_cons, if_pos BEq.rfl, get?_cons, hhead, if_pos BEq.rfl, Option.some.injEq] at hvalue
      have hrest : m = rest := by
        refine ih (distinct_cons_iff.1 h).2 htail fun k => ?_
        by_cases hk : (e.1 == k) = true
        · rw [get?_tail_eq_none h hk, get?_tail_eq_none h' (by rwa [← hhead])]
        · have hboth := hget k
          rwa [get?_cons, if_neg hk, get?_cons, ← hhead, if_neg hk] at hboth
      rw [hrest, Prod.ext hhead hvalue]

theorem putAll_assoc {m ps qs : List (κ × α)} (hm : Distinct m) (hps : Distinct ps)
    (hqs : Distinct qs) : putAll (putAll m ps) qs = putAll m (putAll ps qs) := by
  refine eq_of_keys_of_get? (distinct_putAll qs (distinct_putAll ps hm)) ?_ fun k => ?_
  · simp only [keys_putAll]
    exact append_firstsAfter_assoc _ _ _
  · rw [get?_putAll hqs, get?_putAll hps, get?_putAll (distinct_putAll qs hps), get?_putAll hqs,
      Option.or_assoc]

/-- The pairs of a map without repeated keys put to nothing are that map. -/
theorem putAll_nil_left {m : List (κ × α)} (h : Distinct m) : putAll [] m = m := by
  refine eq_of_keys_of_get? (distinct_putAll m distinct_nil) ?_ fun k => ?_
  · rw [keys_putAll]
    exact firstsAfter_eq_self (fun _ _ => rfl) h
  · rw [get?_putAll h, get?_nil, Option.or_none]

/-- What a map without repeated keys holds is found. -/
theorem get?_of_mem {m : List (κ × α)} (h : Distinct m) {k : κ} {v : α} (hmem : (k, v) ∈ m) :
    get? m k = some v := by
  induction m with
  | nil => cases hmem
  | cons e m ih =>
      obtain ⟨hfirst, hrest⟩ := distinct_cons_iff.1 h
      rw [get?_cons]
      rcases List.mem_cons.1 hmem with rfl | hmem
      · rw [if_pos BEq.rfl]
      · have hne := hfirst k (List.mem_map_of_mem hmem)
        rw [if_neg (Bool.eq_false_iff.1 hne), ih hrest hmem]

end

-- ================================================================== order

/-- Keys stay apart in another order. -/
theorem Distinct.perm {m m' : List (κ × α)} [EquivBEq κ] (h : Distinct m) (hperm : m.Perm m') :
    Distinct m' :=
  (hperm.map Prod.fst).pairwise h fun hne => BEq.symm_false hne

/-- What is found under a key does not depend on the order of the keys. -/
theorem get?_perm [EquivBEq κ] {m m' : List (κ × α)} (h : Distinct m) (hperm : m.Perm m') (k : κ) :
    get? m' k = get? m k := by
  have finds {m m' : List (κ × α)} (h : Distinct m) (hperm : m.Perm m') {v : α}
      (hv : get? m k = some v) : get? m' k = some v := by
    obtain ⟨k', hmem, hsame⟩ := mem_of_get?_eq_some hv
    rw [← get?_congr hsame]
    exact get?_of_mem (h.perm hperm) (hperm.mem_iff.1 hmem)
  cases hv : get? m k with
  | some v => exact finds h hperm hv
  | none =>
      cases hv' : get? m' k with
      | none => rfl
      | some v => cases hv.symm.trans (finds (h.perm hperm) hperm.symm hv')

-- ============================================================ rows of keys

/-- Look-up under a renaming of keys that keeps them apart. -/
theorem get?_map {κ' β : Type} [BEq κ'] {f : κ → κ'} (hf : ∀ k k', (f k == f k') = (k == k'))
    (g : α → β) (m : List (κ × α)) (k : κ) :
    get? (m.map fun e => (f e.1, g e.2)) (f k) = (get? m k).map g := by
  induction m with
  | nil => rfl
  | cons e m ih =>
      rw [List.map_cons, get?_cons, get?_cons, hf, ih]
      split <;> rfl

/-- Keys stay apart under such a renaming. -/
theorem distinct_map {κ' β : Type} [BEq κ'] {f : κ → κ'} (hf : ∀ k k', (f k == f k') = (k == k'))
    (g : α → β) {m : List (κ × α)} (h : Distinct m) :
    Distinct (m.map fun e => (f e.1, g e.2)) := by
  unfold Distinct at h ⊢
  rw [List.map_map, List.pairwise_map] at *
  exact h.imp fun hne => (hf _ _).trans hne

/-- One value put under many keys is found under each of them. -/
theorem get?_putAll_const [LawfulBEq κ] [DecidableEq κ] (v : α) (keys : List κ)
    (m : List (κ × α)) (k : κ) :
    get? (putAll m (keys.map fun k' => (k', v))) k = if k ∈ keys then some v else get? m k := by
  induction keys generalizing m with
  | nil => rfl
  | cons k' keys ih =>
      rw [List.map_cons, putAll_cons, ih, get?_put]
      by_cases hrest : k ∈ keys
      · rw [if_pos hrest, if_pos (List.mem_cons_of_mem k' hrest)]
      · by_cases hk : k' = k
        · rw [if_neg hrest, if_pos (beq_iff_eq.2 hk), if_pos (hk ▸ List.mem_cons_self)]
        · have hnot : k ∉ k' :: keys := by
            rintro (_ | ⟨_, hmem⟩)
            · exact hk rfl
            · exact hrest hmem
          rw [if_neg hrest, if_neg (by simpa using hk), if_neg hnot]

-- =========================================================== maps of pairs

/-- What was found is still found after more pairs. -/
theorem get?_append (m more : List (κ × α)) (k : κ) :
    get? (m ++ more) k = (get? m k).or (get? more k) := by
  induction m with
  | nil => rfl
  | cons e m ih =>
      rw [List.cons_append, get?_cons, get?_cons, ih]
      split <;> rfl

/-- Of the pairs that are put into a map, the last one of a key decides. -/
theorem get?_putAll_last [EquivBEq κ] (m pairs : List (κ × α)) (k : κ) :
    get? (putAll m pairs) k = (get? pairs.reverse k).or (get? m k) := by
  induction pairs generalizing m with
  | nil => rfl
  | cons e pairs ih =>
      rw [putAll_cons, ih, get?_put, List.reverse_cons, get?_append, Option.or_assoc,
        get?_cons]
      refine congrArg (Option.or _) ?_
      split <;> rfl

theorem ofPairs_concat (pairs : List (κ × α)) (e : κ × α) :
    ofPairs (pairs ++ [e]) = put e.1 e.2 (ofPairs pairs) := putAll_append [] pairs [e]

theorem distinct_ofPairs (pairs : List (κ × α)) : Distinct (ofPairs pairs) :=
  distinct_putAll pairs distinct_nil

section

variable [EquivBEq κ] (pairs : List (κ × α))

/-- In a map of pairs the last pair of a key decides. -/
theorem get?_ofPairs (k : κ) : get? (ofPairs pairs) k = get? pairs.reverse k := by
  rw [ofPairs, get?_putAll_last, get?_nil, Option.or_none]

/-- A map of pairs has every key once, where it comes first. -/
theorem keys_ofPairs : (ofPairs pairs).map Prod.fst = (pairs.map Prod.fst).eraseDups := by
  rw [← Morph.firstsAfter_nil]
  exact keys_putAll [] pairs

/-- What a map of pairs holds is what one of them has under the key. -/
theorem exists_of_mem_ofPairs {e : κ × α} (he : e ∈ ofPairs pairs) :
    ∃ e' ∈ pairs, (e'.1 == e.1) = true ∧ e'.2 = e.2 := by
  have hfound := get?_of_mem (distinct_ofPairs pairs) he
  rw [get?_ofPairs] at hfound
  obtain ⟨k, hk, hsame⟩ := mem_of_get?_eq_some hfound
  exact ⟨(k, e.2), List.mem_reverse.1 hk, hsame, rfl⟩

end

end Assoc

end ModelSchema
