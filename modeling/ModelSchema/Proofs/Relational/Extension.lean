/-
Registering classes in a registry that is given. Each class is put under
its own key, so the registry holds its earlier entries, those with the key
of a class replaced in place, and then the classes whose keys are new, by
name (`models_register`); and every class has claimed its global id under
its own name, so that it may be registered again, which changes nothing
(`register_again`). The registry that holds all this is the one that was
given only if that one had entries: an empty one stays as it is, and the
classes are in another one (`extended_iff`).
-/
import ModelSchema.Proofs.Growth.Lookup
import ModelSchema.Proofs.Relational.Classes

namespace ModelSchema

-- ========================================================== ordered maps

namespace Assoc

variable {κ α : Type} [BEq κ] [EquivBEq κ]

/-- A map with other values is searched as it was before. -/
theorem get?_map_or (m other : List (κ × α)) (k : κ) :
    get? (m.map fun e => (e.1, (get? other e.1).getD e.2)) k
      = (get? m k).map fun v => (get? other k).getD v := by
  induction m with
  | nil => rfl
  | cons e m ih =>
      rw [List.map_cons, get?_cons, get?_cons, ih]
      split
      · next hk =>
          rw [get?_congr hk]
          rfl
      · rfl

/-- Of the pairs whose keys are not in a map, the same are found as of
all. -/
theorem get?_filter_not_has (m pairs : List (κ × α)) (k : κ) :
    get? (pairs.filter fun e => !has m e.1) k = if has m k then none else get? pairs k := by
  induction pairs with
  | nil => exact (ite_self _).symm
  | cons e pairs ih =>
      rw [List.filter_cons]
      by_cases he : (e.1 == k) = true
      · -- the pair is of the key that is looked for, so both ask the same
        rw [has_congr he]
        by_cases hk : has m k = true
        · simp only [hk, Bool.not_true, Bool.false_eq_true, if_false, if_true] at ih ⊢
          exact ih
        · simp [hk, get?_cons, he]
      · cases has m e.1 <;> simp [get?_cons, he, ih]

/-- Putting pairs into a map replaces what is there in place, and puts what
is new at the end, as a map of its own. -/
theorem putAll_eq {m : List (κ × α)} (h : Distinct m) (pairs : List (κ × α)) :
    putAll m pairs = m.map (fun e => (e.1, (get? pairs.reverse e.1).getD e.2))
      ++ ofPairs (pairs.filter fun e => !has m e.1) := by
  refine eq_of_keys_of_get? (distinct_putAll pairs h) ?_ fun k => ?_
  · have hnew : (pairs.filter fun e => !has m e.1).map Prod.fst
        = (pairs.map Prod.fst).filter fun k => !(m.map Prod.fst).any (· == k) := by
      rw [List.filter_map]
      refine congrArg _ (List.filter_congr fun e _ => ?_)
      rw [has_eq_any_keys]
      rfl
    rw [keys_putAll, Morph.firstsAfter_eq_eraseDups, List.map_append, List.map_map,
      keys_ofPairs, hnew]
    rfl
  · rw [get?_putAll_last, get?_append, get?_map_or, get?_ofPairs, ← List.filter_reverse,
      get?_filter_not_has]
    cases hfound : get? m k with
    | none =>
        rw [if_neg (Bool.eq_false_iff.1 ((get?_eq_none_iff m k).1 hfound)), Option.or_none]
        rfl
    | some v => cases get? pairs.reverse k <;> rfl

/-- Putting the same pairs a second time changes nothing. -/
theorem putAll_putAll_self {m : List (κ × α)} (h : Distinct m) (pairs : List (κ × α)) :
    putAll (putAll m pairs) pairs = putAll m pairs := by
  refine eq_of_keys_of_get? (distinct_putAll pairs (distinct_putAll pairs h)) ?_ fun k => ?_
  · have hnone : Morph.firstsAfter (pairs.map Prod.fst) (pairs.map Prod.fst) = [] := by
      rw [Morph.firstsAfter_eq_eraseDups, List.filter_eq_nil_iff.2, List.eraseDups_nil]
      intro k hk
      have hseen : (pairs.map Prod.fst).any (· == k) = true :=
        List.any_eq_true.2 ⟨k, hk, BEq.rfl⟩
      rw [hseen]
      exact Bool.false_ne_true
    rw [keys_putAll (putAll m pairs), keys_putAll m, Morph.append_firstsAfter_assoc, hnone,
      List.append_nil]
  · rw [get?_putAll_last, get?_putAll_last, ← Option.or_assoc, Option.or_self]

end Assoc

namespace Registry

-- ================================================== reachable registries

variable {r r' : Registry} {m : Model}

/-- The registries that come about: from the empty one by offers, whatever
is offered and whether it is taken, and by what compiling makes of
entries. -/
inductive Reachable : Registry → Prop
  | empty : Reachable .empty
  | register {r : Registry} (m : Model) (h : Reachable r) : Reachable (r.afterRegister m)
  | registerComponent {r : Registry} (c : Model) (h : Reachable r) :
      Reachable (r.afterRegisterComponent c)
  | replace {r : Registry} (old new : Model) (h : Reachable r) : Reachable (r.replace old new)

theorem models_afterRegister (r : Registry) (m : Model) :
    (r.afterRegister m).models = r.models
      ∨ ∃ key, (r.afterRegister m).models = Assoc.put key m r.models := by
  unfold afterRegister afterOffer
  cases hregister : r.register m with
  | ok r' =>
      obtain ⟨_, key, _, _, rfl, _⟩ := register_eq_ok hregister
      exact Or.inr ⟨key, rfl⟩
  | error f =>
      cases hclaim : r.claim m.globalId (modelLabel m) with
      | ok r' =>
          obtain ⟨id, _, _, rfl⟩ := claim_eq_ok hclaim
          exact Or.inl rfl
      | error f => exact Or.inl rfl

theorem models_afterRegisterComponent (r : Registry) (c : Model) :
    (r.afterRegisterComponent c).models = r.models := by
  have hclaimed : ∀ {globalId label : Value} {r' : Registry},
      r.claim globalId label = .ok r' → r'.models = r.models := by
    intro globalId label r' h
    obtain ⟨_, _, _, rfl⟩ := claim_eq_ok h
    rfl
  unfold afterRegisterComponent afterOffer
  cases hregister : r.registerComponent c with
  | ok r' =>
      obtain ⟨claimed, hclaim, h⟩ := bind_eq_ok.1 hregister
      obtain ⟨key, _, h⟩ := bind_eq_ok.1 h
      cases h
      show claimed.models = r.models
      exact hclaimed hclaim
  | error f =>
      cases hclaim : r.claim c.globalId (componentLabel (withUid c).uid) with
      | ok r' => exact hclaimed hclaim
      | error f => rfl

/-- Every model of a registry that comes about has a key of its own. -/
theorem Reachable.distinct (h : Reachable r) : Assoc.Distinct r.models := by
  induction h with
  | empty => exact Assoc.distinct_nil
  | @register r m _ ih =>
      rcases models_afterRegister r m with hsame | ⟨key, hput⟩
      · rwa [hsame]
      · rw [hput]
        exact Assoc.distinct_put key m ih
  | @registerComponent r c _ ih => rwa [models_afterRegisterComponent]
  | @replace r old new _ ih =>
      have hkeys : (r.replace old new).models.map Prod.fst = r.models.map Prod.fst := by
        unfold Registry.replace
        rw [List.map_map]
        rfl
      unfold Assoc.Distinct
      rwa [hkeys]

/-- Whether two registries hold the same entries, in the same order. -/
def SameEntries (r r' : Registry) : Prop :=
  r.models = r'.models ∧ r.components = r'.components

end Registry

namespace Relational

variable {classes cs : List Mapper} {c : Mapper} {r r' : Registry} {g : Registration}

-- ============================================================ one class

/-- Whether a registry has the global id of a class under the name of that
class. -/
def Claimed (r : Registry) (c : Mapper) : Prop :=
  ∃ id, c.globalId.key = .ok id
    ∧ Assoc.get? r.claims id = some (.str (underscored c.name))

/-- A class that is registered has claimed its global id, and its model is
put under its key. -/
theorem register_toModel (h : r.register c.toModel = .ok r') :
    Claimed r' c ∧ r'.models = Assoc.put c.key c.toModel r.models
      ∧ r'.components = r.components
      ∧ ∃ id, c.globalId.key = .ok id
        ∧ (∀ owner, Assoc.get? r.claims id = some owner →
          owner = .null ∨ owner.agrees (.str (underscored c.name)) = true)
        ∧ r'.claims = Assoc.put id (.str (underscored c.name)) r.claims := by
  obtain ⟨claimed, key, hclaim, hkey, rfl, hcomponents⟩ := Registry.register_eq_ok h
  obtain ⟨id, hid, howner, rfl⟩ := Registry.claim_eq_ok hclaim
  cases hkey
  exact ⟨⟨id, hid, Assoc.get?_put_self _ _ _⟩, rfl, hcomponents, id, hid, howner, rfl⟩

/-- What a class has claimed stays claimed by it while other classes are
registered, since the same global id is refused to any other name. -/
theorem Claimed.register {c' : Mapper} (h : Claimed r c)
    (hregister : r.register c'.toModel = .ok r') : Claimed r' c := by
  obtain ⟨id, hid, hclaimed⟩ := h
  obtain ⟨_, _, _, id', _, howner, hclaims⟩ := register_toModel hregister
  refine ⟨id, hid, ?_⟩
  rw [hclaims, Assoc.get?_put]
  split
  · next hsame =>
      -- the global id is that of both classes, so their names are one
      rw [← Assoc.get?_congr hsame] at hclaimed
      rcases howner _ hclaimed with hnull | hagrees
      · cases hnull
      · rw [Value.agrees_str, beq_iff_eq] at hagrees
        rw [hagrees]
  · exact hclaimed

/-- A class whose global id is under its own name may be registered. -/
theorem Claimed.accepts (h : Claimed r c) :
    ∃ r', r.register c.toModel = .ok r' := by
  obtain ⟨id, hid, hclaimed⟩ := h
  have hclaim : r.claim c.globalId (.str (underscored c.name))
      = .ok { r with claims := Assoc.put id (.str (underscored c.name)) r.claims } := by
    unfold Registry.claim
    rw [hid]
    show (if _ ∧ _ then _ else _) = _
    rw [hclaimed, Option.getD_some, Value.agrees_str, BEq.rfl, if_neg fun h => by cases h.2]
    rfl
  refine ⟨{ r with
    models := Assoc.put c.key c.toModel r.models
    claims := Assoc.put id (.str (underscored c.name)) r.claims }, ?_⟩
  show r.claim c.globalId (.str (underscored c.name)) >>= _ = _
  rw [hclaim]
  rfl

-- ========================================================== all classes

/-- Classes that are registered one after another have all claimed their
global ids, and are put among the models in that order. -/
theorem foldlM_register_eq_ok
    (h : cs.foldlM (fun r c => r.register c.toModel) r = .ok r') :
    (∀ c, Claimed r c ∨ c ∈ cs → Claimed r' c)
      ∧ r'.models = Assoc.putAll r.models (cs.map fun c => (c.key, c.toModel))
      ∧ r'.components = r.components := by
  induction cs generalizing r with
  | nil =>
      cases h
      exact ⟨fun c hc => hc.resolve_right List.not_mem_nil, rfl, rfl⟩
  | cons c cs ih =>
      rw [List.foldlM_cons] at h
      obtain ⟨next, hnext, h⟩ := bind_eq_ok.1 h
      obtain ⟨hclaimed, hmodels, hcomponents⟩ := ih h
      obtain ⟨hown, hput, hkept, _⟩ := register_toModel hnext
      refine ⟨fun c' hc' => hclaimed c' ?_, ?_, hcomponents.trans hkept⟩
      · rcases hc' with hc' | hc'
        · exact Or.inl (hc'.register hnext)
        · rcases List.mem_cons.1 hc' with rfl | hc'
          · exact Or.inl hown
          · exact Or.inr hc'
      · rw [hmodels, hput]
        rfl

/-- Classes that have all claimed their global ids are registered once
more. -/
theorem exists_foldlM_register (h : ∀ c ∈ cs, Claimed r c) :
    ∃ r', cs.foldlM (fun r c => r.register c.toModel) r = .ok r' := by
  induction cs generalizing r with
  | nil => exact ⟨r, rfl⟩
  | cons c cs ih =>
      obtain ⟨next, hnext⟩ := (h c List.mem_cons_self).accepts
      obtain ⟨r', hr'⟩ := ih fun c' hc' => (h c' (List.mem_cons_of_mem _ hc')).register hnext
      refine ⟨r', ?_⟩
      rw [List.foldlM_cons, hnext]
      exact hr'

theorem register_nil (r : Registry) : register r [] = .ok r := by
  unfold register inOrder
  rw [List.mergeSort_nil]
  rfl

/-- The earlier entries of a registry, those with the key of a class with
the model of the class, and of the last one if classes share the key. -/
def replaced (old : List (ModelKey × Model)) (classes : List Mapper) :
    List (ModelKey × Model) :=
  old.map fun entry => (entry.1, (Registry.last (keptPairs classes) entry.1).getD entry.2)

/-- The models of the classes that have no earlier entry, by name. -/
def remaining (old : List (ModelKey × Model)) (classes : List Mapper) :
    List (ModelKey × Model) :=
  (keptPairs classes).filter fun entry => !Assoc.has old entry.1

/-- The entries of a registry after classes have been registered: the
earlier ones, replaced in place, and the remaining classes. -/
theorem register_eq_ok (hr : Assoc.Distinct r.models) (h : register r classes = .ok r') :
    r'.models = replaced r.models classes ++ Assoc.ofPairs (remaining r.models classes)
      ∧ r'.components = r.components := by
  obtain ⟨_, hmodels, hcomponents⟩ := foldlM_register_eq_ok h
  exact ⟨hmodels.trans (Assoc.putAll_eq hr _), hcomponents⟩

/-- Classes that have been registered may be registered again, which changes
no entry. -/
theorem register_again (hr : Assoc.Distinct r.models) (h : register r classes = .ok r') :
    ∃ r₂, register r' classes = .ok r₂ ∧ r₂.SameEntries r' := by
  obtain ⟨hclaimed, hmodels, _⟩ := foldlM_register_eq_ok h
  obtain ⟨r₂, hagain⟩ := exists_foldlM_register fun c hc => hclaimed c (Or.inr hc)
  obtain ⟨_, hmodels₂, hcomponents₂⟩ := foldlM_register_eq_ok hagain
  refine ⟨r₂, hagain, ?_, hcomponents₂⟩
  rw [hmodels₂, hmodels, Assoc.putAll_putAll_self hr]

-- ================================================ the registry that is given

/-- Whether registering classes has extended the registry that was given:
it holds what the registry with the models holds, its earlier entries, those
with the key of a class replaced in place, and then the remaining classes,
by name. -/
def Extended (r : Registry) (classes : List Mapper) (g : Registration) : Prop :=
  ∃ r', g.given = some r' ∧ r'.SameEntries g.registry
    ∧ r'.models = replaced r.models classes ++ remaining r.models classes
    ∧ r'.components = r.components

/-- What comes of registering classes in a registry that is given: it is
extended if it has entries, and stays as it is if it has none. -/
theorem extend_eq_ok (h : extend (some r) classes = .ok g) :
    (r.size ≠ 0 ∧ register r classes = .ok g.registry ∧ g.given = some g.registry)
      ∨ (r.size = 0 ∧ register .empty classes = .ok g.registry ∧ g.given = some r) := by
  unfold extend at h
  rw [Option.filter_some] at h
  by_cases hsize : r.size = 0
  · rw [if_neg (by simpa using hsize)] at h
    obtain ⟨r', hregister, h⟩ := bind_eq_ok.1 h
    cases h
    exact Or.inr ⟨hsize, hregister, rfl⟩
  · rw [if_pos (by simpa using hsize)] at h
    obtain ⟨r', hregister, h⟩ := bind_eq_ok.1 h
    cases h
    exact Or.inl ⟨hsize, hregister, rfl⟩

theorem extend_of_ne {r' : Registry} (hsize : r.size ≠ 0) (h : register r classes = .ok r') :
    extend (some r) classes = .ok ⟨some r', r'⟩ := by
  unfold extend
  rw [Option.filter_some, if_pos (by simpa using hsize)]
  show register r classes >>= _ = _
  rw [h]
  rfl

theorem extend_of_eq {r' : Registry} (hsize : r.size = 0)
    (h : register .empty classes = .ok r') :
    extend (some r) classes = .ok ⟨some r, r'⟩ := by
  unfold extend
  rw [Option.filter_some, if_neg (by simpa using hsize)]
  show register .empty classes >>= _ = _
  rw [h]
  rfl

/-- A registry without entries has none of either kind. -/
theorem entries_of_size (h : r.size = 0) : r.models = [] ∧ r.components = [] := by
  unfold Registry.size at h
  exact ⟨List.length_eq_zero_iff.1 (by omega), List.length_eq_zero_iff.1 (by omega)⟩

/-- Classes that have been registered are registered again in the registry
that holds them. -/
theorem extend_again (hr : Assoc.Distinct r.models) (h : register r classes = .ok r')
    (hsize : r'.size = 0 → r = .empty) :
    ∃ g r₂, extend (some r') classes = .ok g ∧ g.given = some r₂ ∧ r₂.SameEntries r'
      ∧ g.registry.SameEntries r' := by
  by_cases hzero : r'.size = 0
  · rw [hsize hzero] at h
    exact ⟨_, r', extend_of_eq hzero h, rfl, ⟨rfl, rfl⟩, rfl, rfl⟩
  · obtain ⟨r₂, hagain, hsame⟩ := register_again hr h
    exact ⟨_, r₂, extend_of_ne hzero hagain, rfl, hsame, hsame⟩

/-- A registry does not lose entries to classes. -/
theorem size_le (hr : Assoc.Distinct r.models) (h : register r classes = .ok r') :
    r.size ≤ r'.size := by
  obtain ⟨hmodels, hcomponents⟩ := register_eq_ok hr h
  unfold Registry.size
  rw [hmodels, hcomponents, List.length_append, replaced, List.length_map]
  omega

theorem remaining_nil : remaining [] classes = keptPairs classes :=
  List.filter_eq_self.2 fun _ _ => rfl

/-- There are remaining classes for a registry without models, unless there
are no classes at all. -/
theorem keptPairs_eq_nil_iff : keptPairs classes = [] ↔ classes = [] := by
  unfold keptPairs inOrder
  rw [List.map_eq_nil_iff, ← List.length_eq_zero_iff, List.length_mergeSort,
    List.length_eq_zero_iff]

/-- A registry with entries is extended with every remaining class exactly
if each of them has a key of its own. -/
theorem extended_of_ne (hr : Assoc.Distinct r.models)
    (hregister : register r classes = .ok g.registry) (hgiven : g.given = some g.registry) :
    Extended r classes g ↔ Assoc.Distinct (remaining r.models classes) := by
  obtain ⟨hmodels, hcomponents⟩ := register_eq_ok hr hregister
  constructor
  · rintro ⟨r', hr', _, hlisted, _⟩
    cases hgiven.symm.trans hr'
    rw [hmodels] at hlisted
    rw [← List.append_cancel_left hlisted]
    exact Assoc.distinct_ofPairs _
  · intro hdistinct
    refine ⟨g.registry, hgiven, ⟨rfl, rfl⟩, ?_, hcomponents⟩
    rw [hmodels]
    exact congrArg _ (Assoc.putAll_nil_left hdistinct)

/-- A registry without entries is extended only with no classes at all. -/
theorem extended_of_eq (hsize : r.size = 0)
    (hregister : register .empty classes = .ok g.registry) (hgiven : g.given = some r) :
    Extended r classes g ↔ classes = [] := by
  obtain ⟨hmodels, hcomponents⟩ := entries_of_size hsize
  constructor
  · rintro ⟨r', hr', _, hlisted, _⟩
    cases hgiven.symm.trans hr'
    rw [hmodels] at hlisted
    have hnone := (List.append_eq_nil_iff.1 hlisted.symm).2
    rwa [remaining_nil, keptPairs_eq_nil_iff] at hnone
  · rintro rfl
    have hempty : .empty = g.registry := Except.ok.inj ((register_nil _).symm.trans hregister)
    refine ⟨r, hgiven, ?_, ?_, rfl⟩
    · rw [← hempty]
      exact ⟨hmodels, hcomponents⟩
    · rw [hmodels, remaining_nil, keptPairs_eq_nil_iff.2 rfl]
      rfl

/-- What registering classes makes of a registry that is given, in every
state that a registry comes to. The registry with the models has the earlier
entries, those with the key of a class replaced in place, and then the
remaining classes, by name, each key once. It is the registry that was
given, with every remaining class, exactly if that one had entries, or there
are no classes, and no two remaining classes have one key. To do it again,
with the registry that was given or with the one that came of it, changes no
entry of either. -/
theorem extended_iff (hr : r.Reachable) (h : extend (some r) classes = .ok g) :
    g.registry.models = replaced r.models classes ++ Assoc.ofPairs (remaining r.models classes)
      ∧ g.registry.components = r.components
      ∧ (Extended r classes g
        ↔ (r.size = 0 → classes = []) ∧ Assoc.Distinct (remaining r.models classes))
      ∧ ∀ r₁, g.given = some r₁ ∨ g.registry = r₁ →
        ∃ g' r₂, extend (some r₁) classes = .ok g' ∧ g'.given = some r₂ ∧ r₂.SameEntries r₁
          ∧ g'.registry.SameEntries g.registry := by
  rcases extend_eq_ok h with ⟨hsize, hregister, hgiven⟩ | ⟨hsize, hregister, hgiven⟩
  · obtain ⟨hmodels, hcomponents⟩ := register_eq_ok hr.distinct hregister
    refine ⟨hmodels, hcomponents, ?_, fun r₁ hr₁ => ?_⟩
    · rw [extended_of_ne hr.distinct hregister hgiven]
      exact ⟨fun hdistinct => ⟨fun hzero => absurd hzero hsize, hdistinct⟩, And.right⟩
    · have hsame : g.registry = r₁ := hr₁.elim (fun hr₁ => by
        rwa [hgiven, Option.some.injEq] at hr₁) id
      have hnonzero : g.registry.size ≠ 0 := by
        have hle := size_le hr.distinct hregister
        omega
      subst hsame
      exact extend_again hr.distinct hregister fun hzero => absurd hzero hnonzero
  · obtain ⟨hnomodels, hnocomponents⟩ := entries_of_size hsize
    obtain ⟨hmodels, hcomponents⟩ := register_eq_ok Assoc.distinct_nil hregister
    rw [hnomodels, hnocomponents, extended_of_eq hsize hregister hgiven]
    refine ⟨hmodels, hcomponents, ⟨fun hnone => ⟨fun _ => hnone, ?_⟩, fun hcond => hcond.1 hsize⟩,
      fun r₁ hr₁ => ?_⟩
    · rw [remaining_nil, keptPairs_eq_nil_iff.2 hnone]
      exact Assoc.distinct_nil
    · rcases hr₁ with hr₁ | rfl
      · -- the empty registry was left alone, so this is the same call
        rw [hgiven, Option.some.injEq] at hr₁
        subst hr₁
        exact ⟨g, r, h, hgiven, ⟨rfl, rfl⟩, rfl, rfl⟩
      · exact extend_again Assoc.distinct_nil hregister fun _ => rfl

/-- A registry with a model of authors that is not from a class. -/
def authorsRegistry : Registry :=
  Registry.empty.afterRegister { name := .str "author", globalId := .str "Author" }

theorem inOrder_blogClasses : inOrder blogClasses = blogClasses :=
  List.mergeSort_of_pairwise (by decide +kernel)

theorem extended_iff_blogClasses :
    authorsRegistry.Reachable
      ∧ ∃ g, extend (some authorsRegistry) blogClasses = .ok g
        ∧ Extended authorsRegistry blogClasses g
        ∧ g.registry.models.map (fun entry => entry.2.globalId)
          = [.str "Author", .str "BlogPost"] := by
  have hreachable : authorsRegistry.Reachable := .register _ .empty
  have hextend : ∃ g, extend (some authorsRegistry) blogClasses = .ok g := by
    unfold extend register
    rw [inOrder_blogClasses]
    exact ⟨_, rfl⟩
  obtain ⟨g, hg⟩ := hextend
  obtain ⟨hmodels, _, hextended, _⟩ := extended_iff hreachable hg
  refine ⟨hreachable, g, hg, hextended.2 ⟨by decide +kernel, ?_⟩, ?_⟩
  · unfold remaining keptPairs Assoc.Distinct
    rw [inOrder_blogClasses]
    decide +kernel
  · rw [hmodels]
    unfold replaced remaining keptPairs
    rw [inOrder_blogClasses]
    decide +kernel

/-- A registry that is given without entries gets none, and the classes are
in another one. -/
theorem empty_not_extended :
    ∃ r, extend (some .empty) blogClasses = .ok ⟨some .empty, r⟩
      ∧ r.models.map (fun entry => entry.2.globalId) = [.str "Author", .str "BlogPost"]
      ∧ ¬Extended .empty blogClasses ⟨some .empty, r⟩ := by
  have hregister : ∃ r, register .empty blogClasses = .ok r := by
    unfold register
    rw [inOrder_blogClasses]
    exact ⟨_, rfl⟩
  obtain ⟨r, hr⟩ := hregister
  refine ⟨r, extend_of_eq rfl hr, ?_, fun hextended => ?_⟩
  · rw [(register_eq_ok Assoc.distinct_nil hr).1]
    unfold replaced remaining keptPairs
    rw [inOrder_blogClasses]
    decide +kernel
  · rw [extended_of_eq rfl hr rfl] at hextended
    cases hextended

end Relational

end ModelSchema
