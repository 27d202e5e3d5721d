/-
What a registry goes on to answer when it grows. A model under a new name
of the application is put after all others, so that every look-up that
found something finds the same, also where a plugin's name fell back to the
application (`extends_register`). Types, zones, input types and operations
are made of look-ups, and so all that could be made of an entry before is
made again in the larger registry (`typeDefinition`, `dynamicZones`,
`inputModel`, `operations`).
-/
import ModelSchema.Proofs.Hidden.Entries

namespace ModelSchema

-- ========================================================== same results

/-- Whether a step gives the result of another one, if that one gives any. -/
def Within {α : Type} (x y : Except Fault α) : Prop := ∀ a, x = .ok a → y = .ok a

namespace Within

variable {α β : Type} {x y : Except Fault α}

theorem refl (x : Except Fault α) : Within x x := fun _ h => h

theorem bind {f g : α → Except Fault β} (h : Within x y)
    (hf : ∀ a, x = .ok a → Within (f a) (g a)) : Within (x >>= f) (y >>= g) := by
  intro b hb
  obtain ⟨a, ha, hb⟩ := bind_eq_ok.1 hb
  exact bind_eq_ok.2 ⟨a, h a ha, hf a ha b hb⟩

/-- What follows one and the same step. -/
theorem after {f g : α → Except Fault β} (hf : ∀ a, x = .ok a → Within (f a) (g a)) :
    Within (x >>= f) (x >>= g) := (refl x).bind hf

theorem map (f : α → β) (h : Within x y) : Within (f <$> x) (f <$> y) := by
  intro b hb
  obtain ⟨a, ha, hab⟩ := map_eq_ok.1 hb
  exact map_eq_ok.2 ⟨a, h a ha, hab⟩

theorem mapM {f g : α → Except Fault β} (h : ∀ a, Within (f a) (g a)) (as : List α) :
    Within (as.mapM f) (as.mapM g) := by
  intro bs hbs
  rw [mapM_eq_ok] at hbs ⊢
  exact hbs.imp fun a b hb => h a b hb

theorem foldlM {f g : β → α → Except Fault β} (h : ∀ b a, Within (f b a) (g b a)) (as : List α)
    (b : β) : Within (as.foldlM f b) (as.foldlM g b) := by
  induction as generalizing b with
  | nil => exact refl _
  | cons a as ih =>
      rw [List.foldlM_cons, List.foldlM_cons]
      exact (h b a).bind fun b' _ => ih b'

end Within

-- ============================================================= registries

/-- A key that is not there is put at the end. -/
theorem Assoc.put_of_not_has {κ α : Type} [BEq κ] {m : List (κ × α)} {k : κ}
    (h : has m k = false) (v : α) : put k v m = m ++ [(k, v)] := by
  induction m with
  | nil => rfl
  | cons e m ih =>
      rw [has, List.any_cons, Bool.or_eq_false_iff] at h
      rw [put, if_neg (Bool.eq_false_iff.1 h.1), ih h.2, List.cons_append]

namespace Registry

/-- A registry finds what another one finds. -/
structure Extends (r r' : Registry) : Prop where
  model : ∀ name plugin, Within (r.getModel name plugin) (r'.getModel name plugin)
  component : ∀ uid, Within (r.getComponent uid) (r'.getComponent uid)

variable {r r' : Registry} {m : Model}

/-- A claim that succeeds is of a key that nobody has claimed under another
label, and leaves the entries alone. -/
theorem claim_eq_ok {globalId label : Value} (h : r.claim globalId label = .ok r') :
    ∃ id, globalId.key = .ok id
      ∧ (∀ owner, Assoc.get? r.claims id = some owner → owner = .null ∨ owner.agrees label = true)
      ∧ r' = { r with claims := Assoc.put id label r.claims } := by
  obtain ⟨id, hid, h⟩ := bind_eq_ok.1 h
  dsimp only at h
  split at h
  · cases h
  · next hfree =>
      cases h
      refine ⟨id, hid, fun owner howner => ?_, rfl⟩
      rw [howner, Option.getD_some, not_and_or, not_not, Bool.not_eq_false] at hfree
      exact hfree

/-- A model that is registered has claimed its global id, is put among the
models, and leaves the components alone. -/
theorem register_eq_ok (h : r.register m = .ok r') :
    ∃ claimed key, r.claim m.globalId (modelLabel m) = .ok claimed
      ∧ ModelKey.ofValues m.plugin m.name = .ok key
      ∧ r' = { claimed with models := Assoc.put key m r.models }
      ∧ r'.components = r.components := by
  obtain ⟨claimed, hclaim, h⟩ := bind_eq_ok.1 h
  obtain ⟨key, hkey, h⟩ := bind_eq_ok.1 h
  cases h
  refine ⟨claimed, key, hclaim, hkey, ?_⟩
  obtain ⟨id, _, _, rfl⟩ := claim_eq_ok hclaim
  exact ⟨rfl, rfl⟩

/-- A new model of the application is put after all others. -/
theorem models_register {name : Key} (hplugin : m.plugin = .null) (hname : m.name.key = .ok name)
    (hnew : Assoc.has r.models ⟨⟨.null, rfl⟩, name⟩ = false) (h : r.register m = .ok r') :
    r'.models = r.models ++ [(⟨⟨.null, rfl⟩, name⟩, m)] ∧ r'.components = r.components := by
  obtain ⟨claimed, key, _, hkey, rfl, hcomponents⟩ := register_eq_ok h
  rw [hplugin] at hkey
  obtain ⟨plugin, hnull, hkey⟩ := bind_eq_ok.1 hkey
  obtain ⟨name', hname', hkey⟩ := bind_eq_ok.1 hkey
  rw [hname] at hname'
  cases hnull
  cases hname'
  cases hkey
  exact ⟨Assoc.put_of_not_has hnew m, hcomponents⟩

/-- A name that is found in the application is not that of a new model of
it, whatever plugin it is looked up with. -/
theorem key_beq_eq_false {name : Key} {key : ModelKey}
    (hnew : Assoc.has r.models ⟨⟨.null, rfl⟩, name⟩ = false)
    (hfound : Assoc.get? r.models { key with plugin := ⟨.null, rfl⟩ } ≠ none) :
    ((⟨⟨.null, rfl⟩, name⟩ : ModelKey) == key) = false := by
  refine Bool.eq_false_iff.2 fun hsame => ?_
  obtain ⟨_, hname⟩ := (ModelKey.beq_iff _ _).1 hsame
  have happlication : ((⟨⟨.null, rfl⟩, name⟩ : ModelKey)
      == { key with plugin := ⟨.null, rfl⟩ }) = true :=
    (ModelKey.beq_iff _ _).2 ⟨BEq.rfl, hname⟩
  rw [Assoc.has_congr happlication] at hnew
  exact hfound ((Assoc.get?_eq_none_iff _ _).2 hnew)

/-- A registry with one more model of the application finds what was found
before: a name of a plugin is found in the application only if the plugin
has none of that name, which it has as little as before. -/
theorem extends_register {name : Key} (hplugin : m.plugin = .null)
    (hname : m.name.key = .ok name) (hnew : Assoc.has r.models ⟨⟨.null, rfl⟩, name⟩ = false)
    (h : r.register m = .ok r') : r.Extends r' := by
  obtain ⟨hmodels, hcomponents⟩ := models_register hplugin hname hnew h
  refine ⟨fun n plugin found hfound => ?_, fun uid found hfound => ?_⟩
  · rw [getModel_eq] at hfound ⊢
    obtain ⟨key, hkey, hfound⟩ := bind_eq_ok.1 hfound
    refine bind_eq_ok.2 ⟨key, hkey, ?_⟩
    rw [hmodels, Assoc.get?_append, Assoc.get?_append]
    cases hown : (if plugin = .null then none else Assoc.get? r.models key) with
    | some own =>
        have hplugin : plugin ≠ .null := by
          intro hnull
          rw [if_pos hnull] at hown
          cases hown
        rw [if_neg hplugin] at hown
        rw [if_neg hplugin, hown] at hfound ⊢
        exact hfound
    | none =>
        rw [hown, Option.none_or] at hfound
        have happlication : Assoc.get? r.models { key with plugin := ⟨.null, rfl⟩ } ≠ none := by
          intro hnone
          rw [hnone] at hfound
          cases hfound
        have hother := key_beq_eq_false hnew happlication
        obtain ⟨found', hfound'⟩ := Option.ne_none_iff_exists'.1 happlication
        have hown' : (if plugin = .null then none
            else (Assoc.get? r.models key).or
              (Assoc.get? [((⟨⟨.null, rfl⟩, name⟩ : ModelKey), m)] key)) = none := by
          rw [Assoc.get?_cons, if_neg (Bool.eq_false_iff.1 hother), Assoc.get?_nil, Option.or_none]
          exact hown
        rw [hown', Option.none_or, hfound']
        rwa [hfound'] at hfound
  · rw [getComponent_eq, hcomponents, ← getComponent_eq]
    exact hfound

end Registry

-- ================================================================== types

namespace Registry.Extends

variable {r r' : Registry} (h : r.Extends r')

include h

theorem typeRef (a : Attribute) (modelName : Value) (field : String) (mode : Mode) :
    Within (a.typeRef r modelName field mode) (a.typeRef r' modelName field mode) := by
  have component : Within (a.componentRef r mode) (a.componentRef r' mode) :=
    (h.component a.component).bind fun _ _ => Within.refl _
  have relation : Within (a.relationRef r mode) (a.relationRef r' mode) := by
    unfold Attribute.relationRef
    by_cases hgiven : (a.target.isGiven && a.target ≠ Attribute.wildcard) = true
    · simp only [hgiven, if_true]
      exact (h.model a.target a.plugin).bind fun _ _ => Within.refl _
    · simp only [hgiven]
      exact Within.refl _
  unfold Attribute.typeRef
  by_cases hcomponent : a.type = .str "component"
  · rw [if_pos hcomponent, if_pos hcomponent]
    exact component
  · rw [if_neg hcomponent, if_neg hcomponent]
    split
    · exact Within.refl _
    · split
      · exact Within.refl _
      · exact relation

theorem fields (visibility : Visibility) (m : Model) (mode : Mode) :
    Within (Inputs.fields r visibility m mode) (Inputs.fields r' visibility m mode) := by
  refine Within.mapM ?_ (Inputs.exposed visibility m)
  rintro ⟨name, a⟩
  exact (h.typeRef a m.globalId name mode).bind fun _ _ => Within.refl _

theorem zoneMembers (uids : List Value) :
    Within (Zones.members r uids) (Zones.members r' uids) := by
  refine (Within.mapM (fun uid => ?_) uids).bind fun _ _ => Within.refl _
  exact Within.after fun _ _ => (h.component uid).bind fun _ _ => Within.refl _

end Registry.Extends

-- ================================================================ entries

namespace Compiler

variable {c : Compiler} {r' : Registry} (h : c.registry.Extends r') (m : Model)

include h

theorem typeDefinition_within : Within (c.typeDefinition m) ((c.given r').typeDefinition m) :=
  ((h.fields c.visibility m .read).bind fun _ _ => Within.refl _).bind fun _ _ => Within.refl _

theorem dynamicZones_within : Within (c.dynamicZones m) ((c.given r').dynamicZones m) := by
  refine Within.foldlM ?_ (c.exposedOf .dynamicZone m) ({} : Zones)
  rintro zones ⟨name, a⟩
  exact (h.zoneMembers a.components).bind fun _ _ => Within.refl _

/-- The input types of an entry are made again, once its enum types are
declared. -/
theorem inputModel_within {types : List (Key × List Value)} (htypes : c.enumTypes m = .ok types)
    (allowIds : Bool) :
    Within (Inputs.inputModel c.registry c.visibility m m.globalId allowIds)
      (Inputs.inputModel r' c.visibility m m.globalId allowIds) := by
  have htypes' : (c.given r').enumTypes m = .ok types := htypes
  have after := afterInputModel_eq_self m.globalId (isKey_of_enumTypes htypes)
  have after' : Inputs.afterInputModel r' c.visibility m m.globalId = m :=
    afterInputModel_eq_self m.globalId (isKey_of_enumTypes htypes')
  unfold Inputs.inputModel
  rw [after, after']
  refine Within.after fun inputName _ => ?_
  by_cases hexposed : (Inputs.exposed c.visibility m).isEmpty = true
  · simp only [hexposed, if_true]
    exact Within.refl _
  · simp only [hexposed]
    exact (h.fields c.visibility m .write).bind fun _ _ =>
      (h.fields c.visibility m .update).bind fun _ _ => Within.refl _

/-- The operations of a model are made again, once its enum types are
declared. -/
theorem operations_within {types : List (Key × List Value)} (htypes : c.enumTypes m = .ok types) :
    Within (c.operations m) ((c.given r').operations m) := by
  have texts : ∀ mutations,
      Within (c.inputTexts m mutations) ((c.given r').inputTexts m mutations) := by
    intro mutations
    unfold inputTexts
    split
    · exact Within.refl _
    · exact (inputModel_within h m htypes false).map _
  rw [operations_eq, operations_eq]
  exact Within.after fun o _ => (texts o.mutations).bind fun _ _ => Within.refl _

end Compiler

end ModelSchema
