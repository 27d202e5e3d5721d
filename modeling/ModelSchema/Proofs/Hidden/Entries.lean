/-
One entry in two registries that show the same. All that is made of its
exposed attributes is the same; only its object type looks attributes up by
name, hidden ones too. So an object type differs only if a field is called
after a hidden attribute that has something left to say
(`Compiler.LeaksFrom`).
-/
import ModelSchema.Proofs.Hidden.Related
import ModelSchema.Proofs.Hidden.Shown
import ModelSchema.Proofs.Outline.Entries

namespace ModelSchema

-- ================================================================ leaks

/-- Whether there is something left to say of a field. -/
def Sdl.Metadata.isOpen (d : Sdl.Metadata) : Bool :=
  !(d.description.isGiven && d.deprecated.isGiven)

/-- Nothing is taken from elsewhere if nothing is left to say. -/
theorem Sdl.Metadata.orElse_eq_self {d : Sdl.Metadata} (h : d.isOpen = false)
    (other : Sdl.Metadata) : d.orElse other = d := by
  unfold Sdl.Metadata.isOpen at h
  rw [Bool.not_eq_false', Bool.and_eq_true] at h
  unfold Sdl.Metadata.orElse Value.orElse
  rw [if_pos h.1, if_pos h.2]

namespace Compiler

/-- The compiler given another registry. -/
def given (c : Compiler) (r : Registry) : Compiler := { c with registry := r }

@[simp] theorem given_registry (c : Compiler) (r : Registry) : (c.given r).registry = r := rfl

@[simp] theorem given_visibility (c : Compiler) (r : Registry) :
    (c.given r).visibility = c.visibility := rfl

@[simp] theorem given_contributed (c : Compiler) (r : Registry) :
    (c.given r).contributed = c.contributed := rfl

@[simp] theorem given_config (c : Compiler) (r : Registry) :
    (c.given r).config = c.config := rfl

/-- The keys of the fields of an object type. -/
def fieldKeys (c : Compiler) (m : Model) : List String :=
  let names := (c.exposed m).map Prod.fst
  if (c.exposed m).any fun (name, _) => name = "id" then names else "id" :: names

/-- A field of the object type of an entry is called after a hidden
attribute, and what is configured of the field leaves something to say. -/
def LeaksFrom (c : Compiler) (m : Model) : Prop :=
  ∃ id, m.globalId.key = .ok id ∧ ∃ key ∈ c.fieldKeys m, ∃ a,
    m.attribute? (Sdl.baseName key) = some a
      ∧ m.hides c.visibility (Sdl.baseName key, a) = true
      ∧ (Sdl.configuredMetadata (c.contributed.overridesFor id) key).isOpen = true

/-- One of the entries leaks. -/
def Leaks (c : Compiler) : Prop := ∃ m ∈ c.entries, c.LeaksFrom m

end Compiler

section

variable {c : Compiler} {r' : Registry} {m m' : Model}

-- ========================================================= object types

theorem Inputs.fields_congr (hr : c.registry.SameNames r') (hm : m.ShowsSame c.visibility m')
    (mode : Mode) :
    Inputs.fields r' c.visibility m' mode = Inputs.fields c.registry c.visibility m mode := by
  unfold Inputs.fields
  rw [hm.exposed, hm.globalId]
  congr 1
  funext ⟨name, a⟩
  dsimp only
  rw [hr.typeRef]

namespace Compiler

theorem keys_objectFields {fields : Sdl.FieldMap} (h : c.objectFields m = .ok fields) :
    fields.map Prod.fst = c.fieldKeys m := by
  obtain ⟨own, hown, h⟩ := bind_eq_ok.1 h
  cases h
  have names : own.map Prod.fst = (c.exposed m).map Prod.fst := by
    have pairs := mapM_eq_ok.1 hown
    change List.Forall₂ _ (c.exposed m) own at pairs
    generalize c.exposed m = attributes at pairs
    clear h hown
    induction pairs with
    | nil => rfl
    | cons hfield _ ih =>
        obtain ⟨_, _, hfield⟩ := bind_eq_ok.1 hfield
        cases hfield
        rw [List.map_cons, List.map_cons, ih]
  unfold fieldKeys
  rw [← names]
  split <;> rfl

/-- What is said of a field is the same in both, if the entry does not
leak. -/
theorem fieldMetadata_congr (hm : m.ShowsSame c.visibility m') {id : Key}
    (hid : m.globalId.key = .ok id) (hleak : ¬ c.LeaksFrom m) {key : String}
    (hkey : key ∈ c.fieldKeys m) :
    Sdl.fieldMetadata (c.contributed.overridesFor id) (some m') key
      = Sdl.fieldMetadata (c.contributed.overridesFor id) (some m) key := by
  unfold Sdl.fieldMetadata
  simp only [Option.bind_some]
  rcases hm.attribute? (Sdl.baseName key) with ⟨hnone, hnone'⟩ | ⟨a, a', hplace, hget, hget'⟩
  · rw [hnone, hnone']
  · rw [hget, hget']
    rcases hplace with ⟨hhides, _, _⟩ | ⟨_, _, hsame⟩
    · have closed : (Sdl.configuredMetadata (c.contributed.overridesFor id) key).isOpen = false :=
        Bool.eq_false_iff.2 fun hopen => hleak ⟨id, hid, key, hkey, a, hget, hhides, hopen⟩
      rw [Sdl.Metadata.orElse_eq_self closed, Sdl.Metadata.orElse_eq_self closed]
    · rw [(Prod.mk.inj hsame).2]

/-- The object type of an entry fails alike in both, and is the same if the
entry does not leak. -/
theorem typeDefinition_alike (hr : c.registry.SameNames r') (hm : m.ShowsSame c.visibility m') :
    Alike (fun text text' => ¬ c.LeaksFrom m → text' = text)
      (c.typeDefinition m) ((c.given r').typeDefinition m') := by
  have fields : (c.given r').objectFields m' = c.objectFields m := by
    unfold objectFields
    show (Inputs.fields r' c.visibility m' .read >>= fun fields =>
      pure (if (Inputs.exposed c.visibility m').any _ then _ else _)) = _
    rw [Inputs.fields_congr hr hm, hm.exposed]
    rfl
  have description : m'.description = m.description := by
    rw [hm.other]
    rfl
  unfold typeDefinition
  rw [fields, hm.globalId]
  refine Alike.after fun fields hfields => Alike.after fun id hid => Alike.ok fun hleak => ?_
  have lines : Sdl.renderFields fields (c.contributed.overridesFor id) (some m')
      = Sdl.renderFields fields (c.contributed.overridesFor id) (some m) := by
    unfold Sdl.renderFields
    refine congrArg _ (List.map_congr_left fun e he => ?_)
    have hkey : e.1 ∈ c.fieldKeys m := keys_objectFields hfields ▸ List.mem_map_of_mem he
    dsimp only
    rw [fieldMetadata_congr hm hid hleak hkey]
  unfold Sdl.typeDescription
  simp only [description]
  exact congrArg (fun body => Sdl.renderBlock "type" _ body _) lines

-- ========================================== what exposed attributes make

theorem enums_given (hm : m.ShowsSame c.visibility m') : (c.given r').enums m' = c.enums m := by
  unfold enums exposed
  rw [given_visibility, hm.exposed, hm.globalId]

theorem dynamicZones_given (hr : c.registry.SameNames r') (hm : m.ShowsSame c.visibility m') :
    (c.given r').dynamicZones m' = c.dynamicZones m := by
  unfold dynamicZones exposed
  rw [given_visibility, hm.exposed]
  congr 1
  funext zones ⟨name, a⟩
  dsimp only
  unfold Zones.add
  rw [given_registry, hr.zoneMembers, hm.globalId]

/-- The input types of an entry are the same, once its enum types are
declared. -/
theorem inputModel_given (hr : c.registry.SameNames r') (hm : m.ShowsSame c.visibility m')
    {types : List (Key × List Value)} (htypes : c.enumTypes m = .ok types) (allowIds : Bool) :
    Inputs.inputModel r' c.visibility m' m'.globalId allowIds
      = Inputs.inputModel c.registry c.visibility m m.globalId allowIds := by
  have htypes' : (c.given r').enumTypes m' = .ok types := by
    rw [← htypes]
    unfold enumTypes exposedOf exposed
    rw [given_visibility, hm.exposed, hm.globalId]
  have after := afterInputModel_eq_self m.globalId (isKey_of_enumTypes htypes)
  have after' : Inputs.afterInputModel r' c.visibility m' m'.globalId = m' :=
    afterInputModel_eq_self _ (isKey_of_enumTypes htypes')
  unfold Inputs.inputModel
  rw [after, after', hm.exposed, Inputs.fields_congr hr hm, Inputs.fields_congr hr hm,
    hm.globalId]

/-- The operations of a model are the same, once its enum types are
declared. -/
theorem operations_given (hr : c.registry.SameNames r') (hm : m.ShowsSame c.visibility m')
    {types : List (Key × List Value)} (htypes : c.enumTypes m = .ok types) :
    (c.given r').operations m' = c.operations m := by
  have texts : ∀ mutations, (c.given r').inputTexts m' mutations = c.inputTexts m mutations := by
    intro mutations
    unfold inputTexts
    rw [given_registry, given_visibility, inputModel_given hr hm htypes]
  have offered : (c.given r').offered m' = c.offered m := by
    rw [hm.other]
    rfl
  rw [operations_eq, operations_eq, offered]
  refine bind_congr fun o => ?_
  rw [texts, hm.other]
  rfl

end Compiler

end

end ModelSchema
