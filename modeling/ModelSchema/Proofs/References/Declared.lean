/-
What a schema declares. An entry declares its object type and more, and an
enum type is declared by the first entry that uses it: the enum types that
are declared after an entry are those that were declared before and those
that its outline declares (`outlinesFrom_covers`). So every enum type of an
entry is declared somewhere in the schema, whichever entry came first.
-/
import ModelSchema.Proofs.Outline.Schema

namespace ModelSchema

/-- Whether one of these declarations has the name. -/
def Declares (ds : List Declaration) (n : Value) : Prop := ∃ d ∈ ds, d.name.SameName n

instance (ds : List Declaration) (n : Value) : Decidable (Declares ds n) :=
  inferInstanceAs (Decidable (∃ d ∈ ds, d.name.SameName n))

theorem Declares.of_mem {ds : List Declaration} {d : Declaration} (h : d ∈ ds) :
    Declares ds d.name := ⟨d, h, rfl⟩

theorem Declares.mono {ds ds' : List Declaration} (hsub : ds ⊆ ds') {n : Value}
    (h : Declares ds n) : Declares ds' n := by
  obtain ⟨d, hd, hn⟩ := h
  exact ⟨d, hsub hd, hn⟩

-- =========================================================== enum types

namespace Enums

/-- Declaring an enum type makes its name one of those declared, and
forgets none. -/
theorem has_declare (declared : Declared) (key k : Key) (values : List Value) :
    Assoc.has (declare declared key values).declared k = (Assoc.has declared k || key == k) := by
  cases hkey : Assoc.has declared key with
  | true =>
      rw [(declare_of_has hkey values).1]
      by_cases hk : (key == k) = true
      · rw [← Assoc.has_congr hk, hkey]
        rfl
      · rw [Bool.eq_false_iff.2 hk, Bool.or_false]
  | false =>
      rw [(declare_of_not_has hkey values).1, Assoc.has_eq_any_keys, Assoc.keys_put,
        if_neg (by simp [hkey]), List.any_append, ← Assoc.has_eq_any_keys, List.any_cons,
        List.any_nil, Bool.or_false]

/-- The enum types declared after others are those declared before and the
others. -/
theorem has_after (declared : Declared) (types : List (Key × List Value)) (k : Key) :
    Assoc.has (after declared types) k = (Assoc.has declared k || Assoc.has types k) := by
  induction types generalizing declared with
  | nil => exact (Bool.or_false _).symm
  | cons e types ih =>
      rw [after, ih, has_declare, Bool.or_assoc]
      rfl

/-- The enum types declared after others are those declared before and
those of the others that are fresh. -/
theorem has_fresh (declared : Declared) (types : List (Key × List Value)) (k : Key) :
    (Assoc.has declared k || Assoc.has (fresh declared types) k)
      = (Assoc.has declared k || Assoc.has types k) := by
  induction types generalizing declared with
  | nil => rfl
  | cons e types ih =>
      have rest := ih (declare declared e.1 e.2).declared
      rw [has_declare, Bool.or_assoc, Bool.or_assoc] at rest
      rw [fresh]
      cases he : Assoc.has declared e.1 with
      | false => exact rest
      | true =>
          rw [if_pos rfl, List.nil_append]
          show _ = (Assoc.has declared k || (e.1 == k || Assoc.has types k))
          rw [← rest]
          by_cases hk : (e.1 == k) = true
          · rw [← Assoc.has_congr hk, he]
            rfl
          · rw [Bool.eq_false_iff.2 hk, Bool.false_or]

/-- Between two points of a run, these declarations declare every enum type
that has come to be declared, and none is forgotten. -/
structure Covers (before : Declared) (ds : List Declaration) (after : Declared) : Prop where
  kept : ∀ k, Assoc.has before k = true → Assoc.has after k = true
  found : ∀ k, Assoc.has after k = true → Assoc.has before k = true ∨ Declares ds k.value

namespace Covers

variable {before after last : Declared} {ds ds' : List Declaration}

theorem refl (before : Declared) : Covers before [] before := ⟨fun _ h => h, fun _ h => Or.inl h⟩

theorem mono (hsub : ds ⊆ ds') (h : Covers before ds after) : Covers before ds' after :=
  ⟨h.kept, fun k hk => (h.found k hk).imp_right (Declares.mono hsub)⟩

theorem trans (h : Covers before ds after) (h' : Covers after ds' last) :
    Covers before (ds ++ ds') last := by
  refine ⟨fun k hk => h'.kept k (h.kept k hk), fun k hk => ?_⟩
  rcases h'.found k hk with hafter | hds'
  · exact (h.found k hafter).imp_right (Declares.mono (List.subset_append_left ds ds'))
  · exact Or.inr (hds'.mono (List.subset_append_right ds ds'))

end Covers

/-- The enum types that an entry is the first to declare cover its step. -/
theorem covers_fresh (declared : Declared) (types : List (Key × List Value)) :
    Covers declared ((fresh declared types).map declaration) (after declared types) := by
  refine ⟨fun k hk => ?_, fun k hk => ?_⟩
  · rw [has_after, hk]
    rfl
  · rw [has_after, ← has_fresh, Bool.or_eq_true] at hk
    refine hk.imp_right fun hfresh => ?_
    obtain ⟨e, he, hek⟩ := List.any_eq_true.1 hfresh
    exact ⟨declaration e, List.mem_map_of_mem he, (Key.beq_iff _ _).1 hek⟩

end Enums

-- ============================================================== the run

namespace Compiler

open Enums (Declared Covers)

variable {c : Compiler}

/-- The declarations of a component cover its step. -/
theorem componentOutline_covers {declared next : Declared} {m : Model} {o : Outline}
    (h : c.componentOutline declared m = .ok (o, next)) : Covers declared o.declarations next := by
  obtain ⟨object, types, inputs, key, _, _, _, _, rfl, rfl⟩ := componentOutline_eq_ok h
  refine (Enums.covers_fresh declared types).mono fun d hd => ?_
  exact List.mem_append_left _ (List.mem_cons_of_mem _ hd)

/-- The declarations of a model cover its step. -/
theorem modelOutline_covers {declared next : Declared} {m : Model} {o : Outline}
    (h : c.modelOutline declared m = .ok (o, next)) : Covers declared o.declarations next := by
  obtain ⟨own, hown, hcase⟩ := modelOutline_eq_ok h
  obtain ⟨object, types, zones, key, _, _, _, _, rfl, rfl⟩ := ownOutline_eq_ok hown
  have covers : Covers declared
      (entryOutline object (Enums.fresh declared types) zones key).declarations
      (Enums.after declared types) := by
    refine (Enums.covers_fresh declared types).mono fun d hd => ?_
    exact List.mem_append_left _ (List.mem_cons_of_mem _ hd)
  rcases hcase with ⟨_, rfl⟩ | ⟨operations, _, _, rfl⟩
  · exact covers
  · refine covers.mono fun d hd => ?_
    exact List.mem_append_left _ hd

/-- If the declarations of each entry cover its step, those of all entries
cover the run. -/
theorem outlinesFrom_covers {outline : Declared → Model → Except Fault (Outline × Declared)}
    (step : ∀ {declared m o next}, outline declared m = .ok (o, next) →
      Covers declared o.declarations next)
    {ms : List Model} {declared last : Declared} {os : List Outline}
    (h : outlinesFrom outline declared ms = .ok (os, last)) :
    Covers declared (os.flatMap Outline.declarations) last
      ∧ ∀ m ∈ ms, ∃ before o after, outline before m = .ok (o, after) ∧ o ∈ os
        ∧ ∀ k, Assoc.has after k = true → Assoc.has last k = true := by
  induction ms generalizing declared os with
  | nil =>
      cases h
      exact ⟨Covers.refl last, fun m hm => (by cases hm)⟩
  | cons m ms ih =>
      obtain ⟨⟨o, next⟩, ho, h⟩ := bind_eq_ok.1 h
      obtain ⟨⟨os', last'⟩, hos, h⟩ := bind_eq_ok.1 h
      cases h
      obtain ⟨hcovers, hentries⟩ := ih hos
      refine ⟨?_, fun m' hm' => ?_⟩
      · rw [List.flatMap_cons]
        exact (step ho).trans hcovers
      · rcases List.mem_cons.1 hm' with rfl | hm'
        · exact ⟨declared, o, next, ho, List.mem_cons_self, hcovers.kept⟩
        · obtain ⟨before, o', after, ho', hmem, hkept⟩ := hentries m' hm'
          exact ⟨before, o', after, ho', List.mem_cons_of_mem _ hmem, hkept⟩

/-- An entry is outlined among these outlines, and its enum types are
declared by one of them. -/
def Outlined (outline : Declared → Model → Except Fault (Outline × Declared)) (os : List Outline)
    (m : Model) : Prop :=
  ∃ before o after, outline before m = .ok (o, after) ∧ o ∈ os
    ∧ ∀ k, Assoc.has after k = true → Declares (os.flatMap Outline.declarations) k.value

/-- In the outlines of a registry every component and every model is
outlined, with all its enum types. -/
theorem outlined_of_outlines {os : List Outline} (h : c.outlines = .ok os) :
    (∀ m ∈ c.registry.components.map Prod.snd, Outlined c.componentOutline os m)
      ∧ ∀ m ∈ c.registry.models.map Prod.snd, Outlined c.modelOutline os m := by
  obtain ⟨⟨components, declared⟩, hcomponents, h⟩ := bind_eq_ok.1 h
  obtain ⟨⟨models, last⟩, hmodels, h⟩ := bind_eq_ok.1 h
  cases h
  obtain ⟨hcovers, hentries⟩ := outlinesFrom_covers componentOutline_covers hcomponents
  obtain ⟨hcovers', hentries'⟩ := outlinesFrom_covers modelOutline_covers hmodels
  have found : ∀ k, Assoc.has last k = true →
      Declares ((components ++ models).flatMap Outline.declarations) k.value := by
    intro k hk
    rw [List.flatMap_append]
    rcases (hcovers.trans hcovers').found k hk with hstart | hdeclares
    · cases hstart
    · exact hdeclares
  refine ⟨fun m hm => ?_, fun m hm => ?_⟩
  · obtain ⟨before, o, after, ho, hmem, hkept⟩ := hentries m hm
    exact ⟨before, o, after, ho, List.mem_append_left _ hmem,
      fun k hk => found k (hcovers'.kept k (hkept k hk))⟩
  · obtain ⟨before, o, after, ho, hmem, hkept⟩ := hentries' m hm
    exact ⟨before, o, after, ho, List.mem_append_right _ hmem, fun k hk => found k (hkept k hk)⟩

end Compiler

end ModelSchema
