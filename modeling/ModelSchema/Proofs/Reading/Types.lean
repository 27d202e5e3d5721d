/-
The types of fields in documents. Whatever an attribute stands for is a
name, perhaps in a list, with no more than one mark at a time; so if the
names that it refers to may stand in a document, its type may
(`readable_typeRef`), and an attribute that refers to nothing unknown has
a type (`Resolves.exists_typeRef`).
-/
import ModelSchema.Proofs.Names.Entries
import ModelSchema.Proofs.Reading.Declarations
import ModelSchema.Proofs.Reading.Names
import ModelSchema.Proofs.References.Origins

namespace ModelSchema

open Graphql (isName)

-- ============================================================ references

/-- A model that may stand in a document: its global id is a name, and so
is the name of its input type. -/
structure Model.WellNamed (m : Model) : Prop where
  globalId : m.globalId.IsName
  input : isName (m.base ++ "Input") = true

/-- The name of the input type of a model goes by its singular. -/
theorem Naming.inputNameOf_eq_ok {m : Model} {name : String}
    (h : inputNameOf m.globalId = .ok name) : name = m.base ++ "Input" := by
  obtain ⟨singular, hsingular, h⟩ := bind_eq_ok.1 h
  cases h
  rw [singularOf_eq_ok hsingular]
  rfl

/-- The name of an input type for updating is a name if that for creating
is. -/
theorem isName_edit {s : String} (h : isName s = true) : isName ("edit" ++ s) = true :=
  isName_append rfl (NamePart.of_isName h)

namespace TypeRef

/-- A name is a readable reference. -/
theorem readable_named {n : Value} (h : n.IsName) : (named n).expr.Readable :=
  ⟨h.text, Nat.zero_le _⟩

theorem readable_of {s : String} (h : isName s = true) : (TypeRef.of s).expr.Readable :=
  readable_named (Value.isName_str.2 h)

/-- A reference of names that opens no level may be put in a list. -/
theorem readable_list {item : TypeRef} (h : item.expr.Plain) (hdepth : item.expr.depth = 0) :
    (list item).expr.Readable := by
  refine ⟨h, ?_⟩
  show item.expr.depth + 1 ≤ 200
  rw [hdepth]
  decide

theorem readable_listIf {flag : Bool} {item : TypeRef} (h : item.expr.Plain)
    (hdepth : item.expr.depth = 0) : (if flag then list item else item).expr.Readable := by
  cases flag with
  | true => exact readable_list h hdepth
  | false =>
      refine ⟨h, ?_⟩
      show item.expr.depth ≤ _
      rw [hdepth]
      exact Nat.zero_le _

/-- A reference without a mark may take one. -/
theorem readable_requiredIf {flag : Bool} {t : TypeRef} (h : t.expr.Readable)
    (hmark : t.expr.isNonNull = false) : (t.requiredIf flag).expr.Readable := by
  cases flag with
  | true => exact ⟨⟨hmark, h.plain⟩, h.depth⟩
  | false => exact h

end TypeRef

-- ============================================================ attributes

namespace Attribute

/-- What an attribute of an entry refers to may stand in a document, if it
is found. -/
structure Refers (r : Registry) (a : Attribute) (modelName : Value) (field : String) : Prop where
  enum : a.kind = .enumeration → ∀ n, a.enumTypeName modelName field = .ok n → n.IsName
  component : a.kind = .component → ∀ m, r.getComponent a.component = .ok m → m.WellNamed
  relation : a.kind = .relation → a.target ≠ wildcard →
    ∀ m, r.getModel a.target a.plugin = .ok m → m.globalId.IsName

variable {r : Registry} {a : Attribute} {modelName : Value} {field : String} {mode : Mode}
  {t : TypeRef}

theorem isName_scalarType (s : String) :
    isName ((Assoc.get? scalarTypes s).getD "String") = true := by
  have names : ∀ e ∈ scalarTypes, isName e.2 = true := by decide
  cases hget : Assoc.get? scalarTypes s with
  | none => rfl
  | some name =>
      obtain ⟨k, hk, _⟩ := Assoc.mem_of_get?_eq_some hget
      exact names _ hk

theorem kind_eq_component {a : Attribute} (h : a.type = .str "component") :
    a.kind = .component := by
  unfold kind
  rw [if_pos h]

/-- What has no type but a target is a relation. -/
theorem kind_eq_relation {a : Attribute} (htype : a.type.isGiven = false)
    (htarget : a.target.isGiven = true) : a.kind = .relation := by
  have untyped : ∀ s : String, s ≠ "" → a.type ≠ .str s := by
    intro s hs htext
    rw [htext] at htype
    simp [Value.isGiven, hs] at htype
  have hmodels : (a.model.isGiven || a.collection.isGiven) = true := by
    unfold target Value.orElse at htarget
    split at htarget
    · rw [htarget, Bool.true_or]
    · rw [htarget, Bool.or_true]
  unfold kind
  rw [if_neg (untyped _ (by decide)), if_neg (untyped _ (by decide)),
    if_neg (untyped _ (by decide)), htype, hmodels]
  rfl

theorem readable_scalarRef (h : a.Refers r modelName field)
    (ht : a.scalarRef modelName field mode = .ok t) : t.expr.Readable := by
  obtain ⟨_, _, ht⟩ := bind_eq_ok.1 ht
  have named : ∀ n : Value, n.IsName →
      (if a.isDemanded mode then demandedName n else pure (.named n)) = .ok t →
      t.expr.Readable := by
    rintro _ ⟨s, rfl, hs⟩ ht
    split at ht
    · cases ht
      exact ⟨⟨rfl, hs⟩, Nat.zero_le _⟩
    · cases ht
      exact TypeRef.readable_of hs
  by_cases henum : a.type = .str "enumeration"
  · rw [if_pos henum] at ht
    obtain ⟨n, hn, ht⟩ := bind_eq_ok.1 ht
    exact named n (h.enum (a.kind_eq_enumeration_iff.2 henum) n hn) ht
  · rw [if_neg henum] at ht
    split at ht
    · next s _ => exact named _ (Value.isName_str.2 (isName_scalarType s)) ht
    · exact named _ (Value.isName_str.2 rfl) ht

theorem readable_componentRef
    (h : ∀ m, r.getComponent a.component = .ok m → m.WellNamed)
    (ht : a.componentRef r mode = .ok t) : t.expr.Readable := by
  obtain ⟨component, hcomponent, ht⟩ := bind_eq_ok.1 ht
  have hnamed := h component hcomponent
  by_cases hmode : mode = .read
  · subst hmode
    cases ht
    exact TypeRef.readable_listIf hnamed.globalId.text rfl
  · have hmutation : mode.isMutation = true := by
      cases mode with
      | read => exact absurd rfl hmode
      | _ => rfl
    rw [if_pos hmutation] at ht
    obtain ⟨input, hinput, ht⟩ := bind_eq_ok.1 ht
    have hname : isName input = true := by
      obtain ⟨name, hof, hcase⟩ := Compiler.componentInput_eq_ok hmode hinput
      rw [Naming.inputNameOf_eq_ok hof] at hcase
      rcases hcase with rfl | rfl
      · exact hnamed.input
      · exact isName_edit hnamed.input
    have hitem : ((TypeRef.of input).requiredIf (a.required && mode = .write)).expr.Readable :=
      TypeRef.readable_requiredIf (TypeRef.readable_of hname) rfl
    cases ht
    refine TypeRef.readable_listIf hitem.plain ?_
    unfold TypeRef.requiredIf
    split <;> rfl

theorem readable_zoneRef (hmodel : modelName.IsName) :
    (a.zoneRef modelName field mode).expr.Readable := by
  have hzone := isName_zoneName hmodel field
  have hinput : isName (zoneName modelName field ++ "Input") = true :=
    isName_append hzone (NamePart.of_isName rfl)
  unfold zoneRef
  refine TypeRef.readable_requiredIf (TypeRef.readable_list ?_ ?_) rfl
  · split
    · exact ⟨rfl, hinput⟩
    · exact hzone
  · split <;> rfl

theorem readable_relationRef (h : a.target.isGiven = true → a.target ≠ wildcard →
      ∀ m, r.getModel a.target a.plugin = .ok m → m.globalId.IsName)
    (ht : a.relationRef r mode = .ok t) : t.expr.Readable := by
  unfold relationRef at ht
  by_cases htarget : (a.target.isGiven && a.target ≠ wildcard) = true
  · obtain ⟨hgiven, hnone⟩ := (Bool.and_eq_true _ _).mp htarget
    simp only [htarget, if_true] at ht
    obtain ⟨target, hfound, ht⟩ := bind_eq_ok.1 ht
    cases ht
    refine TypeRef.readable_listIf ?_ ?_
    · split
      · exact (TypeRef.readable_of rfl).plain
      · exact (h hgiven (of_decide_eq_true hnone) target hfound).text
    · split <;> rfl
  · simp only [htarget] at ht
    have hitem : isName (if mode.isMutation then "ID" else "Morph") = true := by
      split <;> rfl
    cases ht
    split
    · exact TypeRef.readable_of hitem
    · exact TypeRef.readable_list hitem rfl

/-- The type that an attribute stands for may stand in a document. -/
theorem readable_typeRef (hmodel : modelName.IsName) (h : a.Refers r modelName field)
    (ht : a.typeRef r modelName field mode = .ok t) : t.expr.Readable := by
  unfold typeRef at ht
  by_cases hcomponent : a.type = .str "component"
  · rw [if_pos hcomponent] at ht
    exact readable_componentRef (h.component (kind_eq_component hcomponent)) ht
  rw [if_neg hcomponent] at ht
  by_cases hdynamic : a.type = .str "dynamiczone"
  · rw [if_pos hdynamic] at ht
    cases ht
    exact readable_zoneRef hmodel
  rw [if_neg hdynamic] at ht
  split at ht
  · exact readable_scalarRef h ht
  · next htype =>
      exact readable_relationRef
        (fun htarget => h.relation (kind_eq_relation (Bool.eq_false_iff.2 htype) htarget)) ht

-- ======================================================== what is found

/-- What an attribute refers to is found, and may stand in a document. -/
structure Resolves (r : Registry) (a : Attribute) : Prop where
  type : a.type.isGiven = true → a.type.isKey = true
  enum : a.kind = .enumeration → a.enumName.isGiven = true → a.enumName.IsName
  component : a.kind = .component → ∃ m, r.getComponent a.component = .ok m ∧ m.WellNamed
  relation : a.kind = .relation → a.target ≠ wildcard →
    ∃ m, r.getModel a.target a.plugin = .ok m ∧ m.globalId.IsName

theorem Resolves.refers (h : a.Resolves r) (hmodel : modelName.IsName)
    (hfield : isName field = true) : a.Refers r modelName field := by
  refine ⟨fun hkind n hn => ?_, fun hkind m hm => ?_, fun hkind htarget m hm => ?_⟩
  · obtain ⟨n', hn', hname⟩ := isName_enumTypeName hmodel hfield (h.enum hkind)
    rw [hn] at hn'
    cases hn'
    exact hname
  · obtain ⟨m', hm', hnamed⟩ := h.component hkind
    rw [hm] at hm'
    cases hm'
    exact hnamed
  · obtain ⟨m', hm', hname⟩ := h.relation hkind htarget
    rw [hm] at hm'
    cases hm'
    exact hname

theorem Resolves.exists_scalarRef (h : a.Resolves r) (hgiven : a.type.isGiven = true)
    (hmodel : modelName.IsName) (hfield : isName field = true) (mode : Mode) :
    ∃ t, a.scalarRef modelName field mode = .ok t := by
  obtain ⟨key, hkey⟩ : ∃ key, a.type.key = .ok key := by
    unfold Value.key Key.ofValue?
    rw [dif_pos (h.type hgiven)]
    exact ⟨_, rfl⟩
  have named : ∀ n : Value, n.IsName →
      ∃ t, (if a.isDemanded mode then demandedName n else pure (.named n)) = .ok t := by
    rintro _ ⟨s, rfl, _⟩
    split
    · exact ⟨_, rfl⟩
    · exact ⟨_, rfl⟩
  unfold scalarRef
  rw [hkey]
  by_cases henum : a.type = .str "enumeration"
  · obtain ⟨n, hn, hname⟩ :=
      isName_enumTypeName hmodel hfield (h.enum (a.kind_eq_enumeration_iff.2 henum))
    rw [if_pos henum, hn]
    exact named n hname
  · rw [if_neg henum]
    split
    · next s _ => exact named _ (Value.isName_str.2 (isName_scalarType s))
    · exact named _ (Value.isName_str.2 rfl)

theorem exists_componentRef {m : Model} (hm : r.getComponent a.component = .ok m)
    (hnamed : m.WellNamed) (mode : Mode) : ∃ t, a.componentRef r mode = .ok t := by
  obtain ⟨s, hs, _⟩ := hnamed.globalId
  have hinput : ∃ input, componentInput m mode = .ok input := by
    unfold componentInput
    rw [hs]
    exact ⟨_, rfl⟩
  obtain ⟨input, hinput⟩ := hinput
  unfold componentRef
  rw [hm]
  simp only [bind, Except.bind, hinput]
  split
  · exact ⟨_, rfl⟩
  · exact ⟨_, rfl⟩

/-- An attribute whose references are found stands for a type. -/
theorem Resolves.exists_typeRef (h : a.Resolves r) (hmodel : modelName.IsName)
    (hfield : isName field = true) (mode : Mode) :
    ∃ t, a.typeRef r modelName field mode = .ok t := by
  unfold typeRef
  by_cases hcomponent : a.type = .str "component"
  · obtain ⟨m, hm, hnamed⟩ := h.component (kind_eq_component hcomponent)
    rw [if_pos hcomponent]
    exact exists_componentRef hm hnamed mode
  rw [if_neg hcomponent]
  by_cases hdynamic : a.type = .str "dynamiczone"
  · rw [if_pos hdynamic]
    exact ⟨_, rfl⟩
  rw [if_neg hdynamic]
  split
  · next hgiven => exact h.exists_scalarRef hgiven hmodel hfield mode
  · next htype =>
      unfold relationRef
      by_cases htarget : (a.target.isGiven && a.target ≠ wildcard) = true
      · obtain ⟨hgiven, hnone⟩ := (Bool.and_eq_true _ _).mp htarget
        obtain ⟨m, hm, _⟩ := h.relation (kind_eq_relation (Bool.eq_false_iff.2 htype) hgiven)
          (of_decide_eq_true hnone)
        simp only [htarget, if_true, hm]
        exact ⟨_, rfl⟩
      · simp only [htarget]
        exact ⟨_, rfl⟩

end Attribute

end ModelSchema
