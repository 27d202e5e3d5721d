/-
Merging maps of two levels. What a merged map holds under a type is what
the two maps hold there, joined (`get?_merge`), so every law of the merge
is one of `Section.join`. Where all sections are maps, the entries of a
type are merged as an ordered map of their own (`fieldsOf_merge`).
-/
import ModelSchema.Proofs.Merge.Ordered

namespace ModelSchema

open Morph (firstsAfter)

-- ============================================================ one section

namespace Section

/-- A section that is a map. -/
def IsMap : Section → Prop
  | .entries _ => True
  | .plain _ => False

/-- What two maps hold under one type, where the later one wins. -/
def join (earlier : Option Section) : Option Section → Option Section
  | none => earlier
  | some later => some (after earlier later)

theorem after_none (s : Section) : after none s = s := by cases s <;> rfl

end Section

-- ============================================================= whole maps

namespace SectionMap

/-- A map of two levels that repeats no key, on neither level. -/
structure WellFormed (m : SectionMap) : Prop where
  types : Assoc.Distinct m
  fields : ∀ e ∈ m, Assoc.Distinct e.2.fields

/-- A map of two levels whose sections are maps. -/
def AllMaps (m : SectionMap) : Prop := ∀ e ∈ m, e.2.IsMap

theorem WellFormed.get? {m : SectionMap} (h : m.WellFormed) {type : Key} {s : Section}
    (hs : Assoc.get? m type = some s) : Assoc.Distinct s.fields := by
  obtain ⟨k, hk, _⟩ := Assoc.mem_of_get?_eq_some hs
  exact h.fields _ hk

theorem AllMaps.get? {m : SectionMap} (h : m.AllMaps) {type : Key} {s : Section}
    (hs : Assoc.get? m type = some s) : ∃ es, s = .entries es := by
  obtain ⟨k, hk, _⟩ := Assoc.mem_of_get?_eq_some hs
  cases s with
  | entries es => exact ⟨es, rfl⟩
  | plain v => exact (h _ hk).elim

theorem WellFormed.fieldsOf {m : SectionMap} (h : m.WellFormed) (type : Key) :
    Assoc.Distinct (m.fieldsOf type) := by
  unfold SectionMap.fieldsOf
  cases hs : Assoc.get? m type with
  | none => exact Assoc.distinct_nil
  | some s => exact h.get? hs

/-- A merge puts the later sections one after another. -/
theorem merge_eq_foldl_put (a b : SectionMap) :
    a.merge b
      = b.foldl (fun acc e => Assoc.put e.1 (Section.after (Assoc.get? acc e.1) e.2) acc) a := rfl

theorem keys_merge (a b : SectionMap) :
    (a.merge b).map Prod.fst
      = a.map Prod.fst ++ firstsAfter (a.map Prod.fst) (b.map Prod.fst) :=
  Assoc.keys_foldl_put (fun acc e => Section.after (Assoc.get? acc e.1) e.2) a b

theorem distinct_merge {a : SectionMap} (h : Assoc.Distinct a) (b : SectionMap) :
    Assoc.Distinct (a.merge b) :=
  Assoc.distinct_foldl_put (fun acc e => Section.after (Assoc.get? acc e.1) e.2) b h

/-- Under each type a merged map holds what the two maps hold, joined. -/
theorem get?_merge (a : SectionMap) {b : SectionMap} (hb : Assoc.Distinct b) (type : Key) :
    Assoc.get? (a.merge b) type = Section.join (Assoc.get? a type) (Assoc.get? b type) := by
  rw [merge_eq_foldl_put]
  have hvalue : ∀ (acc acc' : SectionMap) (e : Key × Section),
      Assoc.get? acc e.1 = Assoc.get? acc' e.1 →
      Section.after (Assoc.get? acc e.1) e.2 = Section.after (Assoc.get? acc' e.1) e.2 :=
    fun _ _ e h => congrArg (Section.after · e.2) h
  rw [Assoc.get?_foldl_put hvalue hb]
  cases hfind : List.find? (fun e : Key × Section => e.1 == type) b with
  | none =>
      have hnone : Assoc.get? b type = none := by rw [Assoc.get?, hfind]; rfl
      rw [hnone]
      rfl
  | some e =>
      have hsome : Assoc.get? b type = some e.2 := by rw [Assoc.get?, hfind]; rfl
      have hkey : (e.1 == type) = true :=
        List.find?_some (p := fun e : Key × Section => e.1 == type) hfind
      rw [hsome, ← Assoc.get?_congr hkey]
      rfl

theorem isMap_after {earlier : Option Section} {later : Section} (h : later.IsMap) :
    (Section.after earlier later).IsMap := by
  cases later with
  | entries es =>
      rcases earlier with _ | old | v
      · trivial
      · trivial
      · trivial
  | plain v => exact h.elim

theorem allMaps_merge {a b : SectionMap} (ha : a.AllMaps) (hb : b.AllMaps) :
    (a.merge b).AllMaps := by
  induction b generalizing a with
  | nil => exact ha
  | cons e b ih =>
      refine ih (fun e' he' => ?_) fun e' he' => hb e' (List.mem_cons_of_mem _ he')
      rcases Assoc.mem_put he' with hold | hnew
      · exact ha e' hold
      · rw [hnew]
        exact isMap_after (hb e List.mem_cons_self)

/-- Where all sections are maps, the entries of each type are merged as a
map of their own. -/
theorem fieldsOf_merge {a b : SectionMap} (ha : a.AllMaps) (hb : b.AllMaps)
    (hwell : b.WellFormed) (type : Key) :
    (a.merge b).fieldsOf type = Assoc.putAll (a.fieldsOf type) (b.fieldsOf type) := by
  unfold SectionMap.fieldsOf
  rw [get?_merge a hwell.types]
  cases hlater : Assoc.get? b type with
  | none => rfl
  | some later =>
      obtain ⟨new, rfl⟩ := hb.get? hlater
      cases hearlier : Assoc.get? a type with
      | none =>
          -- nothing is there, so the new entries stay as they are
          exact (Assoc.putAll_nil_left (hwell.get? hlater)).symm
      | some earlier =>
          obtain ⟨old, rfl⟩ := ha.get? hearlier
          rfl

end SectionMap

end ModelSchema
