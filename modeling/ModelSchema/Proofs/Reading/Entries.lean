/-
Entries in documents. If the names of an entry may stand in a document,
and so may what its attributes refer to, then so may everything that is
declared for it: its object type, whatever is said of it, its input types,
its enum types and zones, and the types of its mutations
(`wellNamed_componentOutline`, `wellNamed_modelOutline`).
-/
import ModelSchema.Proofs.Merge.Ordered
import ModelSchema.Proofs.Reading.Types
import ModelSchema.Proofs.References.Known

namespace ModelSchema

open Declaration (Field)
open Graphql (isName)

-- =========================================================== typed fields

/-- Fields that may stand in a document. -/
def ReadableTypes (types : List (String × TypeRef)) : Prop :=
  ∀ e ∈ types, isName e.1 = true ∧ e.2.expr.Readable

namespace ReadableTypes

variable {types : List (String × TypeRef)}

theorem single {name : String} {t : TypeRef} (hname : isName name = true)
    (ht : t.expr.Readable) : ReadableTypes [(name, t)] :=
  List.forall_mem_singleton.2 ⟨hname, ht⟩

theorem put (h : ReadableTypes types) {name : String} {t : TypeRef} (hname : isName name = true)
    (ht : t.expr.Readable) : ReadableTypes (Assoc.put name t types) := by
  induction types with
  | nil => exact single hname ht
  | cons e types ih =>
      obtain ⟨hhead, htail⟩ := List.forall_mem_cons.1 h
      rw [Assoc.put]
      split
      · exact List.forall_mem_cons.2 ⟨⟨hhead.1, ht⟩, htail⟩
      · exact List.forall_mem_cons.2 ⟨hhead, ih htail⟩

theorem putAll (h : ReadableTypes types) {added : List (String × TypeRef)}
    (hadded : ReadableTypes added) : ReadableTypes (Assoc.putAll types added) := by
  induction added generalizing types with
  | nil => exact h
  | cons e added ih =>
      obtain ⟨hhead, htail⟩ := List.forall_mem_cons.1 hadded
      rw [Assoc.putAll_cons]
      exact ih (h.put hhead.1 hhead.2) htail

/-- An input type of plain fields may stand in a document. -/
theorem wellNamed_input (h : ReadableTypes types) (hsome : types ≠ []) {name : String}
    (hname : isName name = true) :
    Declaration.WellNamed ⟨.str name, .input (types.map Inputs.plainField)⟩ := by
  refine ⟨hname, fun hnil => hsome (List.map_eq_nil_iff.1 hnil), fun f hf => ?_⟩
  obtain ⟨e, he, rfl⟩ := List.mem_map.1 hf
  obtain ⟨hfield, htype⟩ := h e he
  exact ⟨⟨hfield, fun _ harg => (by cases harg), htype⟩, rfl⟩

end ReadableTypes

/-- Two input types of readable fields may stand in a document. -/
theorem wellNamed_inputPair {create edit : List (String × TypeRef)}
    (hcreate : ReadableTypes create ∧ create ≠ []) (hedit : ReadableTypes edit ∧ edit ≠ [])
    {name : String} (hname : isName name = true) :
    ∀ d ∈ Inputs.inputPair name create edit, d.WellNamed := by
  refine List.forall_mem_cons.2 ⟨?_, List.forall_mem_singleton.2 ?_⟩
  · exact hcreate.1.wellNamed_input hcreate.2 hname
  · exact hedit.1.wellNamed_input hedit.2 (isName_edit hname)

theorem described_typeDescription (config : Value) (m : Option Model) :
    Declaration.Described (Sdl.typeDescription config m) := by
  have described : ∀ text : Value, Declaration.Described
      (if text.isGiven then Sdl.descriptionBlock text.text else "") := by
    intro text
    split
    · exact Or.inr ⟨_, rfl⟩
    · exact Or.inl rfl
  exact described _

/-- What is declared for the first time is declared. -/
theorem Enums.mem_of_mem_fresh {declared : Declared} {types : List (Key × List Value)}
    {e : Key × List Value} (h : e ∈ fresh declared types) : e ∈ types := by
  induction types generalizing declared with
  | nil => exact h
  | cons first types ih =>
      rw [fresh] at h
      rcases List.mem_append.1 h with h | h
      · split at h
        · cases h
        · rw [List.mem_singleton.1 h]
          exact List.mem_cons_self
      · exact List.mem_cons_of_mem first (ih h)

namespace Compiler

variable {c : Compiler} {m : Model} {types : List (String × TypeRef)}

-- ========================================================== own types

/-- An entry that may stand in a document: its global id and the names of
its exposed attributes are names, and so is what these refer to, if it is
found. -/
structure Presents (c : Compiler) (m : Model) : Prop where
  globalId : m.globalId.IsName
  attributes : ∀ e ∈ c.exposed m, isName e.1 = true ∧ e.2.Refers c.registry m.globalId e.1

/-- The names of enum types may be declared. -/
theorem Presents.isKey (h : c.Presents m) : ∀ e ∈ c.exposedOf .enumeration m, ∀ n,
    e.2.enumTypeName m.globalId e.1 = .ok n → n.isKey = true := by
  intro e he n hn
  obtain ⟨he, hkind⟩ := List.mem_filter.1 he
  obtain ⟨s, rfl, _⟩ := (h.attributes e he).2.enum (of_decide_eq_true hkind) n hn
  rfl

theorem Presents.readable_fieldTypes (h : c.Presents m) {mode : Mode}
    (htypes : Inputs.fieldTypes c.registry c.visibility m mode = .ok types) :
    ReadableTypes types := by
  intro e he
  obtain ⟨a, ha, ht⟩ := Inputs.mem_fieldTypes htypes he
  obtain ⟨hname, hrefers⟩ := h.attributes _ ha
  exact ⟨hname, Attribute.readable_typeRef h.globalId hrefers ht⟩

/-- The fields of the two input types may stand in a document, and there
are some. -/
theorem Presents.readable_inputTypes (h : c.Presents m) {name : Value} {allowIds : Bool}
    {create edit : List (String × TypeRef)}
    (htypes : Inputs.inputTypes c.registry c.visibility m name allowIds = .ok (create, edit)) :
    (ReadableTypes create ∧ create ≠ []) ∧ ReadableTypes edit ∧ edit ≠ [] := by
  have hplaceholder : ReadableTypes [Inputs.placeholderType] ∧ [Inputs.placeholderType] ≠ [] :=
    ⟨ReadableTypes.single rfl (TypeRef.readable_of rfl), List.cons_ne_nil _ _⟩
  have hid : ReadableTypes [Inputs.optionalId] ∧ [Inputs.optionalId] ≠ [] :=
    ⟨ReadableTypes.single rfl (TypeRef.readable_of rfl), List.cons_ne_nil _ _⟩
  unfold Inputs.inputTypes at htypes
  rw [afterInputModel_eq_self name h.isKey] at htypes
  split at htypes
  · cases htypes
    cases allowIds with
    | true => exact ⟨hplaceholder, hid⟩
    | false => exact ⟨hplaceholder, hplaceholder⟩
  · next hexposed =>
      have fields : ∀ {mode types}, Inputs.fieldTypes c.registry c.visibility m mode = .ok types →
          ReadableTypes types ∧ types ≠ [] := by
        intro mode types htypes
        obtain ⟨e, he⟩ := List.exists_mem_of_ne_nil _ fun hnil => hexposed (List.isEmpty_iff.2 hnil)
        obtain ⟨t, ht, _⟩ := Inputs.exists_mem_fieldTypes htypes he
        exact ⟨h.readable_fieldTypes htypes, List.ne_nil_of_mem ht⟩
      obtain ⟨write, hwrite, htypes⟩ := bind_eq_ok.1 htypes
      obtain ⟨update, hupdate, htypes⟩ := bind_eq_ok.1 htypes
      cases htypes
      refine ⟨fields hwrite, ?_⟩
      cases allowIds with
      | false => exact fields hupdate
      | true =>
          refine ⟨hid.1.putAll (fields hupdate).1, fun hnil => ?_⟩
          have hkeys := Assoc.keys_putAll [Inputs.optionalId] update
          change Assoc.putAll [Inputs.optionalId] update = [] at hnil
          rw [hnil] at hkeys
          cases hkeys

theorem Presents.wellNamed_inputDeclarations (h : c.Presents m) {name : Value}
    (hname : ∀ inputName, Naming.inputNameOf name = .ok inputName → isName inputName = true)
    {allowIds : Bool} {ds : List Declaration}
    (hds : Inputs.inputDeclarations c.registry c.visibility m name allowIds = .ok ds) :
    ∀ d ∈ ds, d.WellNamed := by
  obtain ⟨inputName, create, edit, hinput, htypes, rfl⟩ := Inputs.inputDeclarations_eq_ok _ _ hds
  obtain ⟨hcreate, hedit⟩ := h.readable_inputTypes htypes
  exact wellNamed_inputPair hcreate hedit (hname inputName hinput)

/-- The object type of an entry may stand in a document, whatever is said
of it and of its fields. -/
theorem Presents.wellNamed_objectDeclaration (h : c.Presents m) {d : Declaration}
    (hd : c.objectDeclaration m = .ok d) : d.WellNamed := by
  obtain ⟨types, htypes, hd⟩ := bind_eq_ok.1 hd
  obtain ⟨key, _, hd⟩ := bind_eq_ok.1 hd
  cases hd
  have readable : ReadableTypes types ∧ types ≠ [] := by
    obtain ⟨read, hread, htypes⟩ := bind_eq_ok.1 htypes
    have hfields := h.readable_fieldTypes hread
    cases htypes
    split
    · next hown =>
        obtain ⟨e, he, _⟩ := List.any_eq_true.1 hown
        obtain ⟨t, ht, _⟩ := Inputs.exists_mem_fieldTypes hread he
        exact ⟨hfields, List.ne_nil_of_mem ht⟩
    · have hid : isName "id" = true ∧ (TypeRef.nonNull (.of "ID")).expr.Readable :=
        ⟨rfl, ⟨rfl, rfl⟩, Nat.zero_le _⟩
      exact ⟨List.forall_mem_cons.2 ⟨hid, hfields⟩, List.cons_ne_nil _ _⟩
  refine ⟨h.globalId.text, described_typeDescription _ _,
    fun hnil => readable.2 (List.map_eq_nil_iff.1 hnil), fun f hf => ?_⟩
  obtain ⟨e, he, rfl⟩ := List.mem_map.1 hf
  obtain ⟨hname, htype⟩ := readable.1 e he
  exact ⟨hname, fun _ harg => (by cases harg), htype⟩

-- ===================================================== enum types, zones

/-- The enum types of an entry may stand in a document. -/
theorem Presents.wellNamed_enum (h : c.Presents m) {enums : List (Key × List Value)}
    (henums : c.enumTypes m = .ok enums) {e : Key × List Value} (he : e ∈ enums) :
    (Enums.declaration e).WellNamed := by
  obtain ⟨⟨name, a⟩, ha, hpair⟩ := mem_of_mem_mapM henums he
  obtain ⟨n, hn, hpair⟩ := bind_eq_ok.1 hpair
  obtain ⟨key, hkey, hpair⟩ := bind_eq_ok.1 hpair
  cases hpair
  obtain ⟨ha, hkind⟩ := List.mem_filter.1 ha
  have hname := (h.attributes _ ha).2.enum (of_decide_eq_true hkind) n hn
  rw [← Value.value_of_key hkey] at hname
  refine ⟨hname.text, ?_⟩
  unfold Enums.declaration
  by_cases hempty : (Enums.usable a.enum).isEmpty = true
  · simp only [hempty, if_true]
  · simp only [hempty]
    refine ⟨fun hnil => hempty (List.isEmpty_iff.2 hnil), fun v hv => ?_⟩
    have husable := (List.mem_filter.1 hv).2
    exact ((Bool.and_eq_true _ _).mp husable).1

/-- The zones of an entry may stand in a document, if the global ids of
components are names. -/
theorem wellNamed_zoneDeclarations (hid : m.globalId.IsName)
    (hcomponents : ∀ component ∈ c.registry.components.map Prod.snd, component.globalId.IsName)
    {ds : List Declaration} (hds : c.zoneDeclarations m = .ok ds) : ∀ d ∈ ds, d.WellNamed := by
  obtain ⟨pairs, hpairs, rfl⟩ := map_eq_ok.1 hds
  intro d hd
  obtain ⟨pair, hpair, hd⟩ := List.mem_flatten.1 hd
  obtain ⟨e, _, hpairOf⟩ := mem_of_mem_mapM hpairs hpair
  obtain ⟨found, hfound, hpairOf⟩ := bind_eq_ok.1 hpairOf
  have hzone := Attribute.isName_zoneName hid e.1
  have hinput : isName (Attribute.zoneName m.globalId e.1 ++ "Input") = true :=
    isName_append hzone (NamePart.of_isName rfl)
  by_cases hempty : found.isEmpty = true
  · rw [if_pos hempty] at hpairOf
    cases hpairOf
    rcases List.mem_cons.1 hd with rfl | hd
    · exact ⟨hzone, trivial⟩
    · cases List.mem_singleton.1 hd
      exact ⟨hinput, trivial⟩
  · rw [if_neg hempty] at hpairOf
    obtain ⟨named, hnamed, hpairOf⟩ := bind_eq_ok.1 hpairOf
    cases hpairOf
    rcases List.mem_cons.1 hd with rfl | hd
    · refine ⟨hzone, fun hnil => hempty ?_, fun name hname => ?_⟩
      · rw [List.map_eq_nil_iff] at hnil
        rw [hnil] at hnamed
        have hlength := (mapM_eq_ok.1 hnamed).length_eq
        exact List.isEmpty_iff.2 (List.eq_nil_of_length_eq_zero hlength)
      · obtain ⟨member, hmember, rfl⟩ := List.mem_map.1 hname
        obtain ⟨component, hm, hglobal⟩ := mem_zoneMembers hfound hnamed hmember
        have hname := hcomponents component hm
        rw [hglobal] at hname
        exact hname.text
    · cases List.mem_singleton.1 hd
      exact ⟨hinput, trivial⟩

-- ============================================================= mutations

theorem isName_mutationName {singular : String} (h : isName singular = true)
    (action : Inputs.Action) : isName (mutationName singular action) = true := by
  have hword : isName action.text = true := by
    cases action <;> rfl
  exact isName_append hword (NamePart.of_isName (Naming.isName_upperFirst h))

/-- The types of a mutation may stand in a document. -/
theorem wellNamed_mutationDeclarations (hid : m.globalId.IsName) {singular inputName : String}
    (hsingular : isName singular = true) (hinput : isName inputName = true) {mutation : String}
    (hmutation : isName mutation = true) (action : Inputs.Action) :
    ∀ d ∈ Inputs.mutationDeclarations m singular inputName mutation action, d.WellNamed := by
  have hwhere : isName "where" = true ∧ (TypeRef.of "InputID").expr.Readable :=
    ⟨rfl, TypeRef.readable_of rfl⟩
  have hdata : isName "data" = true := rfl
  have harguments : ReadableTypes (Inputs.argumentTypes m inputName action) := by
    have hwheres : ReadableTypes (if m.isSingleType then [] else [("where", .of "InputID")]) := by
      split
      · exact fun e he => (by cases he)
      · exact List.forall_mem_singleton.2 hwhere
    cases action with
    | create => exact ReadableTypes.single hdata (TypeRef.readable_of hinput)
    | update =>
        refine List.forall_mem_append.2 ⟨hwheres, ?_⟩
        exact ReadableTypes.single hdata (TypeRef.readable_of (isName_edit hinput))
    | delete => exact hwheres
  have hargument : isName (Inputs.mutationInputName mutation) = true :=
    isName_append hmutation (NamePart.of_isName rfl)
  have hpayload : isName (Inputs.payloadName mutation) = true :=
    isName_append hmutation (NamePart.of_isName rfl)
  refine List.forall_mem_append.2 ⟨fun d hd => ?_, List.forall_mem_singleton.2 ?_⟩
  · split at hd
    · cases hd
    · next hsome =>
        rw [List.mem_singleton.1 hd]
        exact harguments.wellNamed_input (fun hnil => hsome (List.isEmpty_iff.2 hnil)) hargument
  · refine ⟨hpayload, Or.inl rfl, List.cons_ne_nil _ _, List.forall_mem_singleton.2 ?_⟩
    exact ⟨hsingular, fun _ harg => (by cases harg), TypeRef.readable_named hid⟩

-- ================================================================ outlines

/-- The names of all entries may stand in a document: their global ids and
singulars, the names of their exposed attributes and of their enum types. -/
structure Nameable (c : Compiler) : Prop where
  globalId : ∀ m ∈ c.entries, m.globalId.IsName
  singular : ∀ m ∈ c.entries, isName m.singular = true
  attributes : ∀ m ∈ c.entries, ∀ e ∈ c.exposed m, isName e.1 = true
  enum : ∀ m ∈ c.entries, ∀ e ∈ c.exposedOf .enumeration m, ∀ n,
    e.2.enumTypeName m.globalId e.1 = .ok n → n.IsName

/-- The input types of entries are named by names. -/
theorem Nameable.wellNamed (h : c.Nameable) (hm : m ∈ c.entries) : m.WellNamed :=
  ⟨h.globalId m hm, Naming.isName_inputName (h.singular m hm)⟩

/-- What attributes of entries refer to are entries. -/
theorem Nameable.presents (h : c.Nameable) (hm : m ∈ c.entries) : c.Presents m := by
  refine ⟨h.globalId m hm, fun e he => ⟨h.attributes m hm e he, ?_, fun _ found hfound => ?_,
    fun _ _ found hfound => ?_⟩⟩
  · exact fun hkind => h.enum m hm e (List.mem_filter.2 ⟨he, decide_eq_true hkind⟩)
  · exact h.wellNamed (List.mem_append_left _ (Registry.mem_of_getComponent hfound))
  · exact h.globalId found (List.mem_append_right _ (Registry.mem_of_getModel hfound))

theorem Nameable.isName_input (h : c.Nameable) (hm : m ∈ c.entries) (inputName : String)
    (hinput : Naming.inputNameOf m.globalId = .ok inputName) : isName inputName = true := by
  rw [Naming.inputNameOf_eq_ok hinput]
  exact (h.wellNamed hm).input

open Enums (Declared)

variable {declared next : Declared} {o : Outline}

/-- What an entry declares of itself may stand in a document, if the rest
of it may. -/
theorem Presents.wellNamed_entryOutline (h : c.Presents m) {object : Declaration}
    (hobject : c.objectDeclaration m = .ok object) {enums : List (Key × List Value)}
    (henums : c.enumTypes m = .ok enums) {others : List Declaration}
    (hothers : ∀ d ∈ others, d.WellNamed) (declared : Declared) (key : Key) :
    ∀ d ∈ (entryOutline object (Enums.fresh declared enums) others key).declarations,
      d.WellNamed := by
  refine List.forall_mem_append.2 ⟨List.forall_mem_cons.2 ⟨?_, fun d hd => ?_⟩, hothers⟩
  · exact h.wellNamed_objectDeclaration hobject
  · obtain ⟨e, he, rfl⟩ := List.mem_map.1 hd
    exact h.wellNamed_enum henums (Enums.mem_of_mem_fresh he)

/-- Everything that is declared for a component may stand in a document. -/
theorem Nameable.wellNamed_componentOutline (h : c.Nameable) (hm : m ∈ c.entries)
    (ho : c.componentOutline declared m = .ok (o, next)) : ∀ d ∈ o.declarations, d.WellNamed := by
  obtain ⟨object, enums, inputs, key, hobject, henums, hinputs, _, rfl, _⟩ :=
    componentOutline_eq_ok ho
  have hpresents := h.presents hm
  exact hpresents.wellNamed_entryOutline hobject henums
    (hpresents.wellNamed_inputDeclarations (h.isName_input hm) hinputs) declared key

/-- Everything that is declared for the operations of a model may stand in
a document. -/
theorem Nameable.wellNamed_operationsOutline (h : c.Nameable) (hm : m ∈ c.entries)
    (ho : c.operationsOutline m = .ok o) : ∀ d ∈ o.declarations, d.WellNamed := by
  obtain ⟨singular, hsingular, ho⟩ := bind_eq_ok.1 ho
  obtain ⟨fields, _, ho⟩ := bind_eq_ok.1 ho
  obtain ⟨inputs, hinputs, ho⟩ := bind_eq_ok.1 ho
  cases ho
  have hs : singular = m.singular := Naming.singularOf_eq_ok hsingular
  subst hs
  refine List.forall_mem_append.2 ⟨?_, fun d hd => ?_⟩
  · unfold inputsOf at hinputs
    split at hinputs
    · cases hinputs
      exact fun d hd => (by cases hd)
    · exact (h.presents hm).wellNamed_inputDeclarations (h.isName_input hm) hinputs
  · obtain ⟨⟨name, action⟩, hmutation, hd⟩ := List.mem_flatMap.1 hd
    have hname : isName name = true := by
      obtain ⟨a, _, ha⟩ := List.mem_map.1 (List.mem_of_mem_filter hmutation)
      cases ha
      exact isName_mutationName (h.singular m hm) _
    exact wellNamed_mutationDeclarations (h.globalId m hm) (h.singular m hm)
      (h.wellNamed hm).input hname action d hd

/-- Everything that is declared for a model may stand in a document. -/
theorem Nameable.wellNamed_modelOutline (h : c.Nameable) (hm : m ∈ c.entries)
    (ho : c.modelOutline declared m = .ok (o, next)) : ∀ d ∈ o.declarations, d.WellNamed := by
  obtain ⟨own, hown, hcase⟩ := modelOutline_eq_ok ho
  obtain ⟨object, enums, zones, key, hobject, henums, hzones, _, rfl, _⟩ := ownOutline_eq_ok hown
  have hcomponents : ∀ component ∈ c.registry.components.map Prod.snd,
      component.globalId.IsName :=
    fun component hcomponent => h.globalId component (List.mem_append_left _ hcomponent)
  have hentry := (h.presents hm).wellNamed_entryOutline hobject henums
    (wellNamed_zoneDeclarations (h.globalId m hm) hcomponents hzones) declared key
  rcases hcase with ⟨_, rfl⟩ | ⟨operations, _, hoperations, rfl⟩
  · exact hentry
  · intro d hd
    obtain ⟨part, hpart, hd⟩ := List.mem_flatMap.1 hd
    rcases List.mem_cons.1 hpart with rfl | hpart
    · exact hentry d hd
    · cases List.mem_singleton.1 hpart
      exact h.wellNamed_operationsOutline hm hoperations d hd

/-- What holds of the outline of each entry holds of the outlines of a row
of them. -/
theorem forall_outlinesFrom {outline : Declared → Model → Except Fault (Outline × Declared)}
    {P : Outline → Prop} {ms : List Model}
    (step : ∀ m ∈ ms, ∀ {declared o next}, outline declared m = .ok (o, next) → P o)
    {declared last : Declared} {os : List Outline}
    (h : outlinesFrom outline declared ms = .ok (os, last)) : ∀ o ∈ os, P o := by
  induction ms generalizing declared os with
  | nil =>
      cases h
      exact fun o ho => (by cases ho)
  | cons m ms ih =>
      obtain ⟨⟨o, next⟩, ho, h⟩ := bind_eq_ok.1 h
      obtain ⟨⟨os', last'⟩, hos, h⟩ := bind_eq_ok.1 h
      cases h
      refine List.forall_mem_cons.2 ⟨step m List.mem_cons_self ho, ?_⟩
      exact ih (fun m' hm' => step m' (List.mem_cons_of_mem m hm')) hos

/-- What holds of the outline of each component and model holds of the
outlines of all entries. -/
theorem forall_outlines {P : Outline → Prop}
    (component : ∀ m ∈ c.entries, ∀ {declared o next},
      c.componentOutline declared m = .ok (o, next) → P o)
    (model : ∀ m ∈ c.entries, ∀ {declared o next},
      c.modelOutline declared m = .ok (o, next) → P o)
    {os : List Outline} (h : c.outlines = .ok os) : ∀ o ∈ os, P o := by
  obtain ⟨⟨components, declared⟩, hcomponents, h⟩ := bind_eq_ok.1 h
  obtain ⟨⟨models, last⟩, hmodels, h⟩ := bind_eq_ok.1 h
  cases h
  refine List.forall_mem_append.2 ⟨forall_outlinesFrom ?_ hcomponents,
    forall_outlinesFrom ?_ hmodels⟩
  · exact fun m hm => component m (List.mem_append_left _ hm)
  · exact fun m hm => model m (List.mem_append_right _ hm)

/-- Everything that is declared for the entries may stand in a document. -/
theorem Nameable.wellNamed_outlines (h : c.Nameable) {os : List Outline}
    (hos : c.outlines = .ok os) : ∀ d ∈ os.flatMap Outline.declarations, d.WellNamed := by
  have hall := forall_outlines (P := fun o => ∀ d ∈ o.declarations, d.WellNamed)
    (fun _ hm _ _ _ ho => h.wellNamed_componentOutline hm ho)
    (fun _ hm _ _ _ ho => h.wellNamed_modelOutline hm ho) hos
  exact List.forall_mem_flatMap.2 hall

end Compiler

end ModelSchema
