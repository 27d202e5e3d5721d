/-
The types of an attribute for reading, writing and updating. What an
attribute refers to is looked up once, whatever the type is for; only then
the mode decides how it is named and marked (`typeRef_eq_map`). So a
lookup fails in all modes or in none, and the types that it leads to have
one shape: they are lists together, and their marks differ only where a
mutation asks for more or an update for less (`typeFor_modesAgree`).
-/
import ModelSchema.Proofs.Outline.Declaration
import ModelSchema.Proofs.Run

namespace ModelSchema

-- ================================================================ shapes

namespace TypeRef

/-- Whether the field has to be there. -/
def isNonNull : TypeRef → Bool
  | .nonNull _ => true
  | _ => false

/-- The items, if it is a list of them. -/
def item? : TypeRef → Option TypeRef
  | .named _ => none
  | .list item => some item
  | .nonNull inner => inner.item?

/-- Whether it is a list. -/
def isList (t : TypeRef) : Bool := t.item?.isSome

/-- Whether it is a list whose items have to be there. -/
def hasNonNullItem (t : TypeRef) : Bool := t.item?.any isNonNull

@[simp] theorem isNonNull_named (name : Value) : (named name).isNonNull = false := rfl

@[simp] theorem isNonNull_of (name : String) : (of name).isNonNull = false := rfl

@[simp] theorem isNonNull_list (item : TypeRef) : (list item).isNonNull = false := rfl

@[simp] theorem isNonNull_nonNull (inner : TypeRef) : (nonNull inner).isNonNull = true := rfl

@[simp] theorem item?_named (name : Value) : (named name).item? = none := rfl

@[simp] theorem item?_of (name : String) : (of name).item? = none := rfl

@[simp] theorem item?_list (item : TypeRef) : (list item).item? = some item := rfl

/-- The mark stands outside of the list. -/
@[simp] theorem item?_requiredIf (flag : Bool) (t : TypeRef) :
    (t.requiredIf flag).item? = t.item? := by
  cases flag <;> rfl

@[simp] theorem isNonNull_requiredIf (flag : Bool) (t : TypeRef) :
    (t.requiredIf flag).isNonNull = (flag || t.isNonNull) := by
  cases flag <;> rfl

@[simp] theorem requiredIf_true (t : TypeRef) : t.requiredIf true = .nonNull t := rfl

@[simp] theorem requiredIf_false (t : TypeRef) : t.requiredIf false = t := rfl

end TypeRef

namespace Attribute

variable {r : Registry} {a : Attribute} {modelName : Value} {field : String} {mode : Mode}

-- ================================================================= kinds

/-- What has a type besides the special ones is a scalar or an
enumeration. -/
theorem kind_of_type (hcomponent : a.type ≠ .str "component")
    (hzone : a.type ≠ .str "dynamiczone") (hgiven : a.type.isGiven = true) :
    a.kind = .scalar ∨ a.kind = .enumeration := by
  unfold kind
  rw [if_neg hcomponent, if_neg hzone, if_pos hgiven]
  split
  · exact .inr rfl
  · exact .inl rfl

/-- What has no type is a relation, if it is anything. -/
theorem kind_of_untyped (htype : a.type.isGiven = false) :
    a.kind = .relation ∨ a.kind = .unknown := by
  have untyped : ∀ s : String, s ≠ "" → a.type ≠ .str s := by
    intro s hs htext
    rw [htext] at htype
    simp [Value.isGiven, hs] at htype
  unfold kind
  rw [if_neg (untyped _ (by decide)), if_neg (untyped _ (by decide)),
    if_neg (untyped _ (by decide)), htype]
  split
  · contradiction
  · split
    · exact .inl rfl
    · exact .inr rfl

-- ======================================================== all modes at once

/-- How the types of an attribute in the modes fit together. -/
structure Fits (a : Attribute) (types : Mode → TypeRef) : Prop where
  isList : ∀ mode, (types mode).isList = (types .read).isList
  updated : (types .update).isNonNull = (a.kind = .dynamicZone && a.required)
  written : (types .update).isNonNull = true → (types .write).isNonNull = true
  base : a.kind = .scalar ∨ a.kind = .enumeration →
    ∀ mode, (types mode).base = (types .read).base
  read : a.kind = .scalar ∨ a.kind = .enumeration → (types .read).isNonNull = a.required
  item : ∀ mode, (types mode).hasNonNullItem
    = (a.kind = .dynamicZone && mode.isMutation
      || a.kind = .component && a.required && a.repeatable && mode = .write)

/-- A scalar or enumeration of a name. -/
def scalarType (a : Attribute) (name : String) (mode : Mode) : TypeRef :=
  (TypeRef.of name).requiredIf (a.isDemanded mode)

/-- A component of a global id. -/
def componentType (a : Attribute) (globalId : String) (mode : Mode) : TypeRef :=
  let base := Naming.upperFirst (Naming.toSingular globalId) ++ "Input"
  let item := match mode with
    | .read => .of globalId
    | .write => (TypeRef.of base).requiredIf a.required
    | .update => .of ("edit" ++ base)
  if a.repeatable then .list item else item

/-- A relation, to one or to many, where a type of a name is read. -/
def relationType (plural : Bool) (name : Value) (mode : Mode) : TypeRef :=
  let item := if mode.isMutation then TypeRef.of "ID" else .named name
  if plural then .list item else item

theorem fits_scalarType (hkind : a.kind = .scalar ∨ a.kind = .enumeration) (name : String) :
    a.Fits (a.scalarType name) where
  isList mode := by simp [scalarType, TypeRef.isList]
  updated := by rcases hkind with h | h <;> simp [scalarType, isDemanded, h]
  written := by simp [scalarType, isDemanded]
  base _ mode := by simp [scalarType]
  read _ := by simp [scalarType, isDemanded]
  item mode := by rcases hkind with h | h <;> simp [scalarType, TypeRef.hasNonNullItem, h]

theorem fits_componentType (hkind : a.kind = .component) (globalId : String) :
    a.Fits (a.componentType globalId) where
  isList mode := by
    cases hrepeat : a.repeatable <;> cases mode <;>
      simp [componentType, TypeRef.isList, hrepeat]
  updated := by cases hrepeat : a.repeatable <;> simp [componentType, hrepeat, hkind]
  written := by cases hrepeat : a.repeatable <;> simp [componentType, hrepeat]
  base h := absurd h (by simp [hkind])
  read h := absurd h (by simp [hkind])
  item mode := by
    cases hrepeat : a.repeatable <;> cases mode <;>
      simp [componentType, TypeRef.hasNonNullItem, hrepeat, hkind]

theorem fits_zoneRef (hkind : a.kind = .dynamicZone) : a.Fits (a.zoneRef modelName field) where
  isList mode := by simp [zoneRef, TypeRef.isList]
  updated := by simp [zoneRef, hkind]
  written := by simp [zoneRef]
  base h := absurd h (by simp [hkind])
  read h := absurd h (by simp [hkind])
  item mode := by
    cases mode <;> simp [zoneRef, TypeRef.hasNonNullItem, hkind, Mode.isMutation]

theorem fits_relationType (hkind : a.kind = .relation ∨ a.kind = .unknown) (plural : Bool)
    (name : Value) : a.Fits (relationType plural name) where
  isList mode := by cases plural <;> cases mode <;> rfl
  updated := by
    rcases hkind with h | h <;> cases plural <;> simp [relationType, Mode.isMutation, h]
  written := by cases plural <;> simp [relationType, Mode.isMutation]
  base h := absurd h (by rcases hkind with h | h <;> simp [h])
  read h := absurd h (by rcases hkind with h | h <;> simp [h])
  item mode := by
    rcases hkind with h | h <;> cases plural <;> cases mode <;>
      simp [relationType, TypeRef.hasNonNullItem, h, Mode.isMutation]

-- ========================================================= what is found

/-- The names that the types of an attribute are made of are texts: the
name of its enum type, if it has its own, and the global id of its
component. -/
structure NamedByTexts (r : Registry) (a : Attribute) : Prop where
  enum : a.kind = .enumeration → a.enumName.isGiven = true → ∃ s, a.enumName = .str s
  component : a.kind = .component → ∀ c, r.getComponent a.component = .ok c →
    ∃ s, c.globalId = .str s

/-- The types in all modes, if there are any, are those of one that is
found whatever the mode, and they fit together. -/
def FoundOnce (a : Attribute) (types : Mode → Except Fault TypeRef) : Prop :=
  ∃ found : Except Fault (Mode → TypeRef),
    (∀ mode, types mode = (· mode) <$> found) ∧ ∀ t, found = .ok t → a.Fits t

theorem foundOnce_error {types : Mode → Except Fault TypeRef} (e : Fault)
    (h : ∀ mode, types mode = .error e) : a.FoundOnce types :=
  ⟨.error e, h, fun _ ht => by cases ht⟩

theorem foundOnce_ok {types : Mode → Except Fault TypeRef} {t : Mode → TypeRef} (ht : a.Fits t)
    (h : ∀ mode, types mode = .ok (t mode)) : a.FoundOnce types :=
  ⟨.ok t, h, fun _ h => by cases h; exact ht⟩

/-- The name of an enum type is a text. -/
theorem enumTypeName_eq_str (h : a.enumName.isGiven = true → ∃ s, a.enumName = .str s)
    {n : Value} (hn : a.enumTypeName modelName field = .ok n) : ∃ s, n = .str s := by
  unfold enumTypeName at hn
  split at hn
  · next hgiven =>
      cases hn
      exact h hgiven
  · obtain ⟨upper, _, hn⟩ := bind_eq_ok.1 hn
    cases hn
    exact ⟨_, rfl⟩

/-- The name of a scalar or enumeration does not depend on the mode. -/
theorem foundOnce_scalarRef (h : a.NamedByTexts r)
    (hkind : a.kind = .scalar ∨ a.kind = .enumeration) :
    a.FoundOnce (a.scalarRef modelName field) := by
  have named (s : String) (mode : Mode) :
      (if a.isDemanded mode then demandedName (.str s) else pure (.named (.str s)))
        = .ok (a.scalarType s mode) := by
    unfold scalarType
    cases a.isDemanded mode <;> rfl
  unfold scalarRef
  cases hkey : a.type.key with
  | error e => exact foundOnce_error e fun _ => rfl
  | ok key =>
      by_cases henum : a.type = .str "enumeration"
      · simp only [if_pos henum]
        cases hn : a.enumTypeName modelName field with
        | error e => exact foundOnce_error e fun _ => rfl
        | ok n =>
            obtain ⟨s, rfl⟩ :=
              enumTypeName_eq_str (h.enum (a.kind_eq_enumeration_iff.2 henum)) hn
            exact foundOnce_ok (fits_scalarType hkind s) (named s)
      · simp only [if_neg henum]
        split
        · exact foundOnce_ok (fits_scalarType hkind _) (named _)
        · exact foundOnce_ok (fits_scalarType hkind _) (named _)

/-- The component is found whatever the mode, and its input types have
names. -/
theorem foundOnce_componentRef (h : a.NamedByTexts r) (hkind : a.kind = .component) :
    a.FoundOnce (a.componentRef r) := by
  unfold componentRef
  cases hc : r.getComponent a.component with
  | error e => exact foundOnce_error e fun _ => rfl
  | ok c =>
      obtain ⟨s, hs⟩ := h.component hkind c hc
      have hinput (mode : Mode) : componentInput c mode = .ok
          (let base := Naming.upperFirst (Naming.toSingular s)
            if mode = .update then "edit" ++ base ++ "Input" else base ++ "Input") := by
        unfold componentInput
        rw [hs]
        rfl
      refine foundOnce_ok (fits_componentType hkind s) fun mode => ?_
      simp only [bind, Except.bind, hinput, hs]
      unfold componentType
      cases mode with
      | read => rfl
      | write => cases a.required <;> rfl
      | update =>
          rw [String.append_assoc]
          cases a.required <;> rfl

/-- The target of a relation is looked up whatever the mode, although a
mutation does not name it. -/
theorem foundOnce_relationRef (hkind : a.kind = .relation ∨ a.kind = .unknown) :
    a.FoundOnce (a.relationRef r) := by
  unfold relationRef
  by_cases htarget : (a.target.isGiven && a.target ≠ wildcard) = true
  · simp only [htarget, if_true]
    cases hm : r.getModel a.target a.plugin with
    | error e => exact foundOnce_error e fun _ => rfl
    | ok m => exact foundOnce_ok (fits_relationType hkind a.isPlural m.globalId) fun _ => rfl
  · simp only [htarget]
    refine foundOnce_ok (fits_relationType hkind (!a.model.isGiven) (.str "Morph")) fun mode => ?_
    cases a.model.isGiven <;> cases mode <;> rfl

theorem foundOnce_typeRef (h : a.NamedByTexts r) :
    a.FoundOnce (a.typeRef r modelName field) := by
  unfold typeRef
  by_cases hcomponent : a.type = .str "component"
  · simp only [if_pos hcomponent]
    exact foundOnce_componentRef h (if_pos hcomponent)
  simp only [if_neg hcomponent]
  by_cases hzone : a.type = .str "dynamiczone"
  · simp only [if_pos hzone]
    exact foundOnce_ok (fits_zoneRef (a.kind_eq_dynamicZone_iff.2 hzone)) fun _ => rfl
  simp only [if_neg hzone]
  cases hgiven : a.type.isGiven with
  | true => exact foundOnce_scalarRef h (kind_of_type hcomponent hzone hgiven)
  | false => exact foundOnce_relationRef (kind_of_untyped hgiven)

-- ============================================================ agreement

/-- The type that an attribute stands for under a root type and an action,
given by their names. -/
def typeFor (r : Registry) (a : Attribute) (modelName : Value) (field root action : String) :
    Except Fault TypeRef := a.typeRef r modelName field (.ofNames root action)

/-- Under all root types and actions the types of an attribute are of one
shape. -/
structure ModesAgree (a : Attribute) (types : String → String → Except Fault TypeRef) :
    Prop where
  /-- A failure in one mode is that of every mode. -/
  failure : ∀ root action e, types root action = .error e →
    ∀ root' action', types root' action' = .error e
  isList : ∀ root action t root' action' t', types root action = .ok t →
    types root' action' = .ok t' → t.isList = t'.isList
  /-- Only an update is not written like a whole. -/
  written : types "mutation" "" = types "mutation" "create"
    ∧ types "mutation" "delete" = types "mutation" "create"
  /-- An update has to have a required dynamic zone, and then a creation
  has to have it too. -/
  updated : ∀ t, types "mutation" "update" = .ok t → t.isNonNull = true →
    (∃ t', types "mutation" "create" = .ok t' ∧ t'.isNonNull = true)
      ∧ a.kind = .dynamicZone ∧ a.required = true
  base : a.kind = .scalar ∨ a.kind = .enumeration →
    ∀ root action t root' action' t', types root action = .ok t →
      types root' action' = .ok t' → t.base = t'.base
  read : a.kind = .scalar ∨ a.kind = .enumeration →
    ∀ action t, types "query" action = .ok t → t.isNonNull = a.required
  item : ∀ root action t, types root action = .ok t → t.hasNonNullItem = true →
    root = "mutation" ∧ (a.kind = .dynamicZone
      ∨ action ≠ "update" ∧ a.kind = .component ∧ a.required = true ∧ a.repeatable = true)

theorem FoundOnce.failure {types : Mode → Except Fault TypeRef} (h : a.FoundOnce types)
    {mode : Mode} {e : Fault} (he : types mode = .error e) (mode' : Mode) :
    types mode' = .error e := by
  obtain ⟨found, htypes, _⟩ := h
  cases found with
  | error e' => exact (htypes mode').trans ((htypes mode).symm.trans he)
  | ok t => cases (htypes mode).symm.trans he

theorem FoundOnce.fits {types : Mode → Except Fault TypeRef} (h : a.FoundOnce types)
    {mode : Mode} {x : TypeRef} (hx : types mode = .ok x) :
    ∃ t, a.Fits t ∧ t mode = x ∧ ∀ mode', types mode' = .ok (t mode') := by
  obtain ⟨found, htypes, hfits⟩ := h
  cases found with
  | error e => cases (htypes mode).symm.trans hx
  | ok t =>
      have hmode : types mode = .ok (t mode) := htypes mode
      exact ⟨t, hfits t rfl, Except.ok.inj (hmode.symm.trans hx), htypes⟩

/-- Names of root types and actions stand for modes, so whatever is found
once agrees under all of them. -/
theorem modesAgree_of_foundOnce {types : Mode → Except Fault TypeRef} (h : a.FoundOnce types) :
    a.ModesAgree fun root action => types (.ofNames root action) where
  failure _ _ _ he _ _ := h.failure he _
  isList _ _ x _ _ x' hx hx' := by
    obtain ⟨t, hfits, rfl, htypes⟩ := h.fits hx
    cases (htypes _).symm.trans hx'
    rw [hfits.isList, ← hfits.isList]
  written := ⟨rfl, rfl⟩
  updated x hx hnonNull := by
    obtain ⟨t, hfits, rfl, htypes⟩ := h.fits hx
    refine ⟨⟨_, htypes .write, hfits.written hnonNull⟩, ?_⟩
    have hzone : (a.kind = .dynamicZone && a.required) = true := hfits.updated ▸ hnonNull
    simpa using hzone
  base hkind _ _ x _ _ x' hx hx' := by
    obtain ⟨t, hfits, rfl, htypes⟩ := h.fits hx
    cases (htypes _).symm.trans hx'
    rw [hfits.base hkind, ← hfits.base hkind]
  read hkind _ x hx := by
    obtain ⟨t, hfits, rfl, _⟩ := h.fits hx
    exact hfits.read hkind
  item root action x hx hitem := by
    obtain ⟨t, hfits, rfl, _⟩ := h.fits hx
    rw [hfits.item] at hitem
    have written : (Mode.ofNames root action).isMutation = true → root = "mutation" := by
      unfold Mode.ofNames
      split
      · next hroot => exact fun _ => hroot
      · exact fun h => by cases h
    have whole : Mode.ofNames root action = .write → action ≠ "update" := by
      unfold Mode.ofNames
      rintro hmode rfl
      split at hmode <;> cases hmode
    simp only [Bool.or_eq_true, Bool.and_eq_true, decide_eq_true_eq] at hitem
    rcases hitem with ⟨hkind, hmode⟩ | ⟨⟨⟨hkind, hrequired⟩, hrepeatable⟩, hmode⟩
    · exact ⟨written hmode, .inl hkind⟩
    · refine ⟨written ?_, .inr ⟨whole hmode, hkind, hrequired, hrepeatable⟩⟩
      rw [hmode]
      rfl

/-- The types of an attribute whose names are texts are of one shape under
all root types and actions. -/
theorem typeFor_modesAgree (r : Registry) (a : Attribute) (modelName : Value) (field : String)
    (h : a.NamedByTexts r) : a.ModesAgree (a.typeFor r modelName field) :=
  modesAgree_of_foundOnce (foundOnce_typeRef h)

/-- A registry of one component. -/
def cardRegistry : Registry :=
  { components := [(.ofText "card", { name := .str "card", globalId := .str "Card" })] }

/-- A required list of components. -/
def cards : Attribute :=
  { type := .str "component", component := .str "card", required := true, repeatable := true }

theorem typeFor_modesAgree_cards :
    cards.NamedByTexts cardRegistry
      ∧ cards.ModesAgree (cards.typeFor cardRegistry (.str "Page") "cards")
      ∧ cards.typeFor cardRegistry (.str "Page") "cards" "mutation" "create"
        = .ok (.list (.nonNull (.of "CardInput"))) := by
  have texts : cards.NamedByTexts cardRegistry := by
    refine ⟨fun hkind => absurd hkind (by decide), fun _ c hc => ⟨"Card", ?_⟩⟩
    cases hc
    rfl
  exact ⟨texts, typeFor_modesAgree cardRegistry cards (.str "Page") "cards" texts, by decide⟩

end Attribute

end ModelSchema
