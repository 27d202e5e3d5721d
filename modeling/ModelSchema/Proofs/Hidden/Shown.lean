/-
What is shown of a registry. Two registries show the same if they differ
only in attributes that are hidden in both, with the same names in the same
places. Then their entries have the same exposed attributes
(`Model.ShowsSame.exposed`), and whatever an attribute refers to is named
alike in both (`Registry.SameNames.typeRef`).
-/
import ModelSchema.Proofs.Outline.Types

namespace ModelSchema

variable {v : Visibility}

-- ============================================================ attributes

/-- Whether an attribute is hidden: private, or not enabled. -/
def Model.hides (v : Visibility) (m : Model) (e : String × Attribute) : Bool :=
  e.2.hidden || !v.isEnabled m e.1

/-- What two models have in one place shows the same: attributes of one
name that are hidden in both, or one attribute that is exposed in both. -/
def Model.SamePlace (v : Visibility) (m m' : Model) (e e' : String × Attribute) : Prop :=
  (m.hides v e = true ∧ m'.hides v e' = true ∧ e.1 = e'.1)
    ∨ (m.hides v e = false ∧ m'.hides v e' = false ∧ e = e')

/-- Two models show the same: they differ in hidden attributes alone. -/
structure Model.ShowsSame (v : Visibility) (m m' : Model) : Prop where
  other : m' = { m with attributes := m'.attributes }
  attributes : List.Forall₂ (Model.SamePlace v m m') m.attributes m'.attributes

theorem Model.SamePlace.name {m m' : Model} {e e' : String × Attribute}
    (h : Model.SamePlace v m m' e e') : e.1 = e'.1 := by
  rcases h with ⟨_, _, h⟩ | ⟨_, _, rfl⟩
  · exact h
  · rfl

theorem Model.ShowsSame.globalId {m m' : Model} (h : m.ShowsSame v m') :
    m'.globalId = m.globalId := by rw [h.other]

/-- The exposed attributes are those that are not hidden. -/
theorem Model.exposed_eq (v : Visibility) (m : Model) :
    Inputs.exposed v m = m.attributes.filter fun e => !m.hides v e := by
  unfold Inputs.exposed Model.hides
  refine List.filter_congr fun e _ => ?_
  rw [Bool.not_or, Bool.not_not]

/-- Models that show the same expose the same. -/
theorem Model.ShowsSame.exposed {m m' : Model} (h : m.ShowsSame v m') :
    Inputs.exposed v m' = Inputs.exposed v m := by
  rw [m.exposed_eq, m'.exposed_eq]
  have places := h.attributes
  generalize m.attributes = attributes at places
  generalize m'.attributes = attributes' at places
  induction places with
  | nil => rfl
  | cons hplace _ ih =>
      rw [List.filter_cons, List.filter_cons, ih]
      rcases hplace with ⟨hhides, hhides', _⟩ | ⟨hhides, hhides', rfl⟩
      · rw [hhides, hhides']
        rfl
      · rw [hhides, hhides']

-- =============================================================== look-up

/-- Look-up in two maps whose places are related: nothing is found in
both, or what is found is in related places. -/
theorem Assoc.get?_places {κ α : Type} [BEq κ] {S : κ × α → κ × α → Prop}
    (hS : ∀ e e', S e e' → e.1 = e'.1) {l l' : List (κ × α)} (h : List.Forall₂ S l l') (k : κ) :
    (Assoc.get? l k = none ∧ Assoc.get? l' k = none)
      ∨ ∃ e e', S e e' ∧ (e.1 == k) = true
          ∧ Assoc.get? l k = some e.2 ∧ Assoc.get? l' k = some e'.2 := by
  induction h with
  | nil => exact Or.inl ⟨rfl, rfl⟩
  | @cons e e' _ _ hplace _ ih =>
      rw [Assoc.get?_cons, Assoc.get?_cons, ← hS e e' hplace]
      by_cases hk : (e.1 == k) = true
      · rw [if_pos hk, if_pos hk]
        exact Or.inr ⟨e, e', hplace, hk, rfl, rfl⟩
      · rw [if_neg hk, if_neg hk]
        exact ih

/-- Attributes of one name show the same in models that do. -/
theorem Model.ShowsSame.attribute? {m m' : Model} (h : m.ShowsSame v m') (name : String) :
    (m.attribute? name = none ∧ m'.attribute? name = none)
      ∨ ∃ a a', Model.SamePlace v m m' (name, a) (name, a')
          ∧ m.attribute? name = some a ∧ m'.attribute? name = some a' := by
  rcases Assoc.get?_places (fun _ _ => Model.SamePlace.name) h.attributes name with
    hnone | ⟨⟨k, a⟩, ⟨k', a'⟩, hplace, hk, hget, hget'⟩
  · exact Or.inl hnone
  · obtain rfl : k = k' := hplace.name
    obtain rfl : k = name := eq_of_beq hk
    exact Or.inr ⟨a, a', hplace, hget, hget'⟩

-- ============================================================= registries

/-- Entries under one key that show the same. -/
def Registry.SameEntry {κ : Type} (v : Visibility) (e e' : κ × Model) : Prop :=
  e.1 = e'.1 ∧ e.2.ShowsSame v e'.2

/-- Two registries show the same: their entries do, one by one. -/
structure Registry.ShowsSame (v : Visibility) (r r' : Registry) : Prop where
  models : List.Forall₂ (Registry.SameEntry v) r.models r'.models
  components : List.Forall₂ (Registry.SameEntry v) r.components r'.components
  claims : r'.claims = r.claims

/-- What is found in two registries is named alike. -/
structure Registry.SameNames (r r' : Registry) : Prop where
  model : ∀ name plugin,
    Model.globalId <$> r'.getModel name plugin = Model.globalId <$> r.getModel name plugin
  component : ∀ uid,
    Model.globalId <$> r'.getComponent uid = Model.globalId <$> r.getComponent uid

/-- The entries of a key are named alike. -/
theorem Registry.globalId_get? {κ : Type} [BEq κ] {l l' : List (κ × Model)}
    (h : List.Forall₂ (Registry.SameEntry v) l l') (k : κ) :
    (Assoc.get? l' k).map Model.globalId = (Assoc.get? l k).map Model.globalId := by
  rcases Assoc.get?_places (fun _ _ hentry => hentry.1) h k with
    ⟨hnone, hnone'⟩ | ⟨e, e', hentry, _, hget, hget'⟩
  · rw [hnone, hnone']
  · rw [hget, hget', Option.map_some, Option.map_some, hentry.2.globalId]

/-- Entries that are named alike stay so if there have to be any. -/
theorem Registry.globalId_elim {x x' : Option Model}
    (h : x'.map Model.globalId = x.map Model.globalId) (f : Fault) :
    Model.globalId <$> (x'.elim (throw f) pure : Except Fault Model)
      = Model.globalId <$> (x.elim (throw f) pure : Except Fault Model) := by
  cases x with
  | none =>
      cases x' with
      | none => rfl
      | some m' => cases h
  | some m =>
      cases x' with
      | none => cases h
      | some m' => exact congrArg Except.ok (Option.some.inj h)

/-- Registries that show the same name alike what is found in them. -/
theorem Registry.ShowsSame.sameNames {r r' : Registry} (h : r.ShowsSame v r') :
    r.SameNames r' := by
  constructor
  · intro name plugin
    rw [Registry.getModel_eq, Registry.getModel_eq]
    cases ModelKey.ofValues plugin name with
    | error e => rfl
    | ok key =>
        have own : (if plugin = .null then none else Assoc.get? r'.models key).map Model.globalId
            = (if plugin = .null then none else Assoc.get? r.models key).map Model.globalId := by
          split
          · rfl
          · exact Registry.globalId_get? h.models key
        refine Registry.globalId_elim ?_ (.unknownModel name plugin)
        rw [Option.map_or, Option.map_or, own, Registry.globalId_get? h.models]
  · intro uid
    rw [Registry.getComponent_eq, Registry.getComponent_eq]
    cases uid.key with
    | error e => rfl
    | ok key =>
        exact Registry.globalId_elim (Registry.globalId_get? h.components key)
          (.unknownModel uid .null)

-- ================================================================= types

/-- What follows a step depends on one part of its result, and that part is
the same after another step. -/
theorem bind_congr_of_map {ε α β γ : Type} {f : α → γ} {x x' : Except ε α}
    (h : f <$> x = f <$> x') {k : α → Except ε β} (hk : ∀ a a', f a = f a' → k a = k a') :
    x >>= k = x' >>= k := by
  cases x with
  | error e =>
      cases x' with
      | error e' =>
          cases h
          rfl
      | ok a' => cases h
  | ok a =>
      cases x' with
      | error e' => cases h
      | ok a' => exact hk a a' (Except.ok.inj h)

namespace Registry.SameNames

variable {r r' : Registry} (h : r.SameNames r')

include h

/-- An attribute stands for the same type wherever what it refers to is
named alike. -/
theorem typeRef (a : Attribute) (modelName : Value) (field : String) (mode : Mode) :
    a.typeRef r' modelName field mode = a.typeRef r modelName field mode := by
  have component : a.componentRef r' mode = a.componentRef r mode := by
    refine bind_congr_of_map (h.component a.component) fun m m' hname => ?_
    unfold Attribute.componentInput
    rw [hname]
  have relation : a.relationRef r' mode = a.relationRef r mode := by
    unfold Attribute.relationRef
    by_cases hgiven : (a.target.isGiven && a.target ≠ Attribute.wildcard) = true
    · simp only [hgiven, if_true]
      refine bind_congr_of_map (h.model a.target a.plugin) fun m m' hname => ?_
      rw [hname]
    · simp only [hgiven]
      rfl
  unfold Attribute.typeRef
  rw [component, relation]

/-- A zone has the same members. -/
theorem zoneMembers (uids : List Value) : Zones.members r' uids = Zones.members r uids := by
  unfold Zones.members
  congr 2
  funext uid
  cases uid.key with
  | error e => rfl
  | ok key =>
      refine bind_congr_of_map (h.component uid) fun m m' hname => ?_
      rw [hname]

end Registry.SameNames

end ModelSchema
