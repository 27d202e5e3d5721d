/-
What a parser finds of an entry. The object type and the two input types
of a model or component that may stand in a document are read as the
exposed attributes, each once, in order and with the type that it stands
for, besides an identifier or the field of a type without fields
(`exposure_exact`): whatever is said of them adds no field and hides none.
-/
import ModelSchema.Proofs.Reading.Documents
import ModelSchema.Proofs.Reading.Entries

namespace ModelSchema

open Declaration (Field)
open Declaration.Field (argumentValue)
open Graphql (FieldDefinition InputValue TypeExpr isName)

-- ======================================================== fields in types

/-- The name of a field, its arguments and its type. -/
def Graphql.FieldDefinition.signature (f : FieldDefinition) :
    String × List InputValue × TypeExpr :=
  (f.name, f.arguments, f.type)

/-- A typed field that takes no arguments, as it is found. -/
def plainSignature (e : String × TypeRef) : String × List InputValue × TypeExpr :=
  (e.1, [], e.2.expr)

/-- The fields of an object type: an identifier comes first, unless there
is a field of its name. -/
def identified (types : List (String × TypeRef)) : List (String × TypeRef) :=
  if types.any fun e => e.1 = "id" then types else ("id", .nonNull (.of "ID")) :: types

/-- Fields with an identifier that may be left out, at the start. A field
of its name tells its type. -/
def identifiable (types : List (String × TypeRef)) : List (String × TypeRef) :=
  ("id", (Assoc.get? types "id").getD (.of "ID")) :: types.filter fun e => e.1 ≠ "id"

/-- Fields, or the one that stands in where there would be none. -/
def orPlaceholder (types : List (String × TypeRef)) : List (String × TypeRef) :=
  if types.isEmpty then [Inputs.placeholderType] else types

variable {types : List (String × TypeRef)}

theorem names_identified (types : List (String × TypeRef)) :
    (identified types).map Prod.fst
      = if (types.map Prod.fst).any fun n => n = "id" then types.map Prod.fst
        else "id" :: types.map Prod.fst := by
  unfold identified
  rw [List.any_map]
  show List.map _ (if types.any (fun e => e.1 = "id") then _ else _)
    = if types.any (fun e => e.1 = "id") then _ else _
  split <;> rfl

/-- Putting the fields of a type after an identifier puts each of them
after it, but for one of its name. -/
theorem putAll_optionalId (h : Assoc.Distinct types) :
    Assoc.putAll [Inputs.optionalId] types = identifiable types := by
  have hid : Assoc.Distinct [Inputs.optionalId] := List.pairwise_singleton _ _
  refine Assoc.eq_of_keys_of_get? (Assoc.distinct_putAll types hid) ?_ fun k => ?_
  · have hnames : Morph.firstsAfter ["id"] (types.map Prod.fst)
        = (types.map Prod.fst).filter fun n => !(["id"].any (· == n)) := by
      rw [Morph.firstsAfter_eq_eraseDups, ← Morph.firstsAfter_nil,
        Morph.firstsAfter_eq_self (fun _ _ => rfl) (h.filter _)]
    rw [Assoc.keys_putAll]
    show "id" :: Morph.firstsAfter ["id"] (types.map Prod.fst) = "id" :: _
    rw [hnames, List.filter_map]
    refine congrArg (fun es => "id" :: List.map Prod.fst es) (List.filter_congr fun e _ => ?_)
    by_cases he : e.1 = "id"
    · simp [he]
    · have hne : "id" ≠ e.1 := fun h => he h.symm
      simp [he, hne]
  · have hget : Assoc.get? [Inputs.optionalId] k
        = if ("id" == k) = true then some (.of "ID") else none := Assoc.get?_cons _ _ _
    rw [Assoc.get?_putAll h, hget]
    unfold identifiable
    rw [Assoc.get?_cons]
    by_cases hk : ("id" == k) = true
    · rw [if_pos hk, if_pos hk, ← beq_iff_eq.1 hk]
      cases Assoc.get? types "id" <;> rfl
    · rw [if_neg hk, if_neg hk, Option.or_none]
      unfold Assoc.get?
      rw [List.find?_filter]
      congr 2
      funext e
      by_cases he : e.1 = k
      · have hne : k ≠ "id" := fun h => hk (by rw [h]; exact BEq.rfl)
        simp [he, hne]
      · simp [he]

namespace Compiler

variable {c : Compiler} {m : Model}

-- ==================================================== exposed attributes

/-- Fields that are the exposed attributes of an entry, in order, with the
types that they stand for. -/
def Typed (c : Compiler) (m : Model) (mode : Mode) (types : List (String × TypeRef)) : Prop :=
  List.Forall₂ (fun e f => f.1 = e.1 ∧ e.2.typeRef c.registry m.globalId e.1 mode = .ok f.2)
    (c.exposed m) types

theorem typed_iff {mode : Mode} :
    c.Typed m mode types ↔ Inputs.fieldTypes c.registry c.visibility m mode = .ok types := by
  have typed : ∀ (e : String × Attribute) (f : String × TypeRef),
      (f.1 = e.1 ∧ e.2.typeRef c.registry m.globalId e.1 mode = .ok f.2)
        ↔ (do return (e.1, ← e.2.typeRef c.registry m.globalId e.1 mode)) = Except.ok f := by
    intro e f
    rw [bind_eq_ok]
    constructor
    · rintro ⟨hname, htype⟩
      exact ⟨f.2, htype, congrArg Except.ok (Prod.ext hname.symm rfl)⟩
    · rintro ⟨t, htype, h⟩
      cases h
      exact ⟨rfl, htype⟩
  unfold Inputs.fieldTypes
  rw [mapM_eq_ok]
  exact ⟨fun h => h.imp fun e f => (typed e f).1, fun h => h.imp fun e f => (typed e f).2⟩

theorem Typed.names {mode : Mode} (h : c.Typed m mode types) :
    types.map Prod.fst = (c.exposed m).map Prod.fst := by
  unfold Typed at h
  generalize c.exposed m = exposed at h
  induction h with
  | nil => rfl
  | cons hhead _ ih => rw [List.map_cons, List.map_cons, hhead.1, ih]

/-- The fields of an object type are the exposed attributes with an
identifier. -/
theorem objectTypes_eq (h : c.Typed m .read types) : c.objectTypes m = .ok (identified types) := by
  have hnames : ((c.exposed m).any fun e => e.1 = "id") = types.any fun e => e.1 = "id" := by
    have hany := congrArg (List.any · fun n => decide (n = "id")) h.names
    simp only [List.any_map] at hany
    exact hany.symm
  unfold objectTypes identified
  rw [typed_iff.1 h, ← hnames]
  rfl

/-- An entry that may stand in a document: its global id and the names of
its exposed attributes are names, and what these refer to is found. -/
structure Exposable (c : Compiler) (m : Model) : Prop where
  globalId : m.globalId.IsName
  distinct : Assoc.Distinct m.attributes
  attributes : ∀ e ∈ c.exposed m, isName e.1 = true ∧ e.2.Resolves c.registry

/-- The exposed attributes of an entry that may stand in a document have
types in every mode. -/
theorem Exposable.exists_typed (h : c.Exposable m) (mode : Mode) :
    ∃ types, c.Typed m mode types := by
  simp only [typed_iff]
  refine exists_mapM_iff.2 fun e he => ?_
  obtain ⟨hname, hresolves⟩ := h.attributes e he
  obtain ⟨t, ht⟩ := hresolves.exists_typeRef h.globalId hname mode
  exact ⟨(e.1, t), bind_eq_ok.2 ⟨t, ht, rfl⟩⟩

theorem Exposable.presents (h : c.Exposable m) : c.Presents m := by
  refine ⟨h.globalId, fun e he => ?_⟩
  obtain ⟨hname, hresolves⟩ := h.attributes e he
  exact ⟨hname, hresolves.refers h.globalId hname⟩

theorem Typed.distinct {mode : Mode} (ht : c.Typed m mode types)
    (h : Assoc.Distinct m.attributes) : Assoc.Distinct types := by
  unfold Assoc.Distinct
  rw [ht.names]
  exact h.sublist (List.filter_sublist.map Prod.fst)

-- ============================================================ the two texts

/-- The object type of an entry is found with its exposed attributes. -/
theorem parse_typeDefinition (h : c.Presents m) (htypes : c.Typed m .read types) :
    ∃ text description fields, c.typeDefinition m = .ok text
      ∧ Graphql.parse text = .ok [.type ⟨description, m.globalId.text, [], .object [] fields⟩]
      ∧ fields.map FieldDefinition.signature = (identified types).map plainSignature := by
  obtain ⟨key, hkey⟩ : ∃ key, m.globalId.key = .ok key := by
    obtain ⟨s, hs, _⟩ := h.globalId
    rw [hs]
    exact ⟨.ofText s, rfl⟩
  let overrides := c.contributed.overridesFor key
  let d : Declaration := ⟨m.globalId, .object (Sdl.typeDescription (.map overrides) (some m))
    ((identified types).map (objectField m overrides))⟩
  have hd : c.objectDeclaration m = .ok d :=
    bind_eq_ok.2 ⟨_, objectTypes_eq htypes, bind_eq_ok.2 ⟨key, hkey, rfl⟩⟩
  have htext : c.typeDefinition m = .ok (Declaration.texts [d]) := by
    rw [typeDefinition_eq, hd, Declaration.texts, List.map_singleton, String.intercalate_singleton]
    rfl
  have hparse := Declaration.parse_texts (List.cons_ne_nil d [])
    (List.forall_mem_singleton.2 (h.wellNamed_objectDeclaration hd))
  refine ⟨_, _, _, htext, hparse.trans rfl, ?_⟩
  rw [List.map_map, List.map_map]
  rfl

/-- The fields of the two input types of an entry. -/
theorem inputTypes_eq (h : c.Exposable m) (name : Value) {write update : List (String × TypeRef)}
    (hwrite : c.Typed m .write write) (hupdate : c.Typed m .update update) (allowIds : Bool) :
    Inputs.inputTypes c.registry c.visibility m name allowIds
      = .ok (orPlaceholder write,
          orPlaceholder (if allowIds then identifiable update else update)) := by
  have lengths : ∀ {mode types}, c.Typed m mode types →
      types.isEmpty = (Inputs.exposed c.visibility m).isEmpty := by
    intro mode types ht
    have hnames := congrArg List.isEmpty ht.names
    rw [List.isEmpty_map, List.isEmpty_map] at hnames
    exact hnames
  have hputs := putAll_optionalId (hupdate.distinct h.distinct)
  unfold Inputs.inputTypes
  rw [afterInputModel_eq_self name h.presents.isKey, typed_iff.1 hwrite, typed_iff.1 hupdate]
  by_cases hempty : (Inputs.exposed c.visibility m).isEmpty = true
  · have hnone := lengths hwrite
    have hnone' := lengths hupdate
    rw [hempty, List.isEmpty_iff] at hnone hnone'
    rw [if_pos hempty, hnone, hnone']
    cases allowIds <;> rfl
  · have hsome := lengths hwrite
    have hsome' := lengths hupdate
    rw [if_neg hempty]
    unfold orPlaceholder
    rw [hsome, if_neg hempty]
    cases allowIds with
    | true =>
        show Except.ok (write, Assoc.putAll [Inputs.optionalId] update) = _
        rw [hputs]
        rfl
    | false =>
        show Except.ok (write, update) = Except.ok (write, if update.isEmpty then _ else update)
        rw [hsome', if_neg hempty]

/-- The input types of an entry are found with its exposed attributes. -/
theorem parse_inputModel (h : c.Exposable m) {name : Value} {inputName : String}
    (hinput : Naming.inputNameOf name = .ok inputName) (hname : isName inputName = true)
    {write update : List (String × TypeRef)} (hwrite : c.Typed m .write write)
    (hupdate : c.Typed m .update update) (allowIds : Bool) :
    ∃ text, Inputs.inputModel c.registry c.visibility m name allowIds = .ok text
      ∧ Graphql.parse text = .ok [
        .type ⟨none, inputName, [], .input ((orPlaceholder write).map argumentValue)⟩,
        .type ⟨none, "edit" ++ inputName, [], .input ((orPlaceholder
          (if allowIds then identifiable update else update)).map argumentValue)⟩] := by
  have htypes := inputTypes_eq h name hwrite hupdate allowIds
  obtain ⟨hcreate, hedit⟩ := h.presents.readable_inputTypes htypes
  generalize orPlaceholder (if allowIds then identifiable update else update) = edit at *
  let ds := Inputs.inputPair inputName (orPlaceholder write) edit
  have hds : Inputs.inputDeclarations c.registry c.visibility m name allowIds = .ok ds :=
    bind_eq_ok.2 ⟨_, hinput, bind_eq_ok.2 ⟨_, htypes, rfl⟩⟩
  have hnamed : ∀ d ∈ ds, d.WellNamed := wellNamed_inputPair hcreate hedit hname
  have hparse := Declaration.parse_texts (List.cons_ne_nil _ _) hnamed
  refine ⟨Declaration.texts ds, ?_, hparse.trans ?_⟩
  · rw [Inputs.inputModel_eq, hds]
    rfl
  · show Except.ok [Graphql.Definition.type ⟨none, _, [], .input ((List.map _ _).map _)⟩,
      Graphql.Definition.type ⟨none, _, [], .input ((List.map _ _).map _)⟩] = _
    rw [List.map_map, List.map_map]
    rfl

-- ========================================================= exact exposure

/-- The text of the object type of an entry is read as one object type, named
by the global id, whose fields are the exposed attributes in order with
their types, after `id: ID!` if none of them is an `id`. The text of its
input types is read as two: one for creating with the exposed attributes,
one for updating with the same, which with identifiers allowed has one `id`
first; where there would be no field, a placeholder stands in. -/
theorem exposure_exact (h : c.Exposable m) {name : Value} {inputName : String}
    (hinput : Naming.inputNameOf name = .ok inputName) (hname : isName inputName = true) :
    ∃ types : Mode → List (String × TypeRef),
      (∀ mode, List.Forall₂
        (fun e f => f.1 = e.1 ∧ e.2.typeRef c.registry m.globalId e.1 mode = .ok f.2)
        (c.exposed m) (types mode))
      ∧ (∃ text description fields, c.typeDefinition m = .ok text
        ∧ Graphql.parse text = .ok [.type ⟨description, m.globalId.text, [], .object [] fields⟩]
        ∧ fields.map FieldDefinition.signature = (identified (types .read)).map plainSignature)
      ∧ ∀ allowIds, ∃ text,
        Inputs.inputModel c.registry c.visibility m name allowIds = .ok text
        ∧ Graphql.parse text = .ok [
          .type ⟨none, inputName, [], .input ((orPlaceholder (types .write)).map argumentValue)⟩,
          .type ⟨none, "edit" ++ inputName, [], .input ((orPlaceholder
            (if allowIds then identifiable (types .update) else types .update)).map
              argumentValue)⟩] := by
  choose types htypes using h.exists_typed
  exact ⟨types, htypes, parse_typeDefinition h.presents (htypes .read),
    parse_inputModel h hinput hname (htypes .write) (htypes .update)⟩

/-- A component of one attribute. -/
def seoComponent : Model :=
  { name := .str "seo", globalId := .str "Seo", kind := .str "component", uid := .str "seo"
    attributes := [("keywords", { type := .str "string" })] }

/-- A model with a hidden attribute, and a description that would end
early. -/
def describedModel : Model :=
  { name := .str "page", globalId := .str "Page"
    attributes := [
      ("title", { type := .str "string", required := true
                  description := .str "a \"\"\"\nsecret: Int" }),
      ("secret", { type := .str "integer", hidden := true }),
      ("seo", { type := .str "component", component := .str "seo", repeatable := true })] }

/-- A registry of both. -/
def describedRegistry : Registry :=
  { components := [(.ofText "seo", seoComponent)]
    models := [(.ofName "page", describedModel)] }

/-- The compiler of that registry alone. -/
abbrev describedCompiler : Compiler := ofRegistry describedRegistry none {}

theorem exposure_exact_described :
    describedCompiler.Exposable describedModel
      ∧ Naming.inputNameOf describedModel.globalId = .ok "PageInput" ∧ isName "PageInput" = true
      ∧ ∃ text description fields, describedCompiler.typeDefinition describedModel = .ok text
        ∧ Graphql.parse text = .ok [.type ⟨description, "Page", [], .object [] fields⟩]
        ∧ fields.map FieldDefinition.name = ["id", "title", "seo"] := by
  have hseo : seoComponent.WellNamed := ⟨⟨"Seo", rfl, rfl⟩, by decide +kernel⟩
  have hexposed : describedCompiler.exposed describedModel
      = [describedModel.attributes[0], describedModel.attributes[2]] := rfl
  have hexposable : describedCompiler.Exposable describedModel := by
    refine ⟨⟨"Page", rfl, rfl⟩, by unfold Assoc.Distinct; decide, ?_⟩
    rw [hexposed]
    refine List.forall_mem_cons.2 ⟨⟨rfl, ?_⟩, List.forall_mem_singleton.2 ⟨rfl, ?_⟩⟩
    · exact ⟨fun _ => rfl, fun h => (by cases h), fun h => (by cases h), fun h => (by cases h)⟩
    · exact ⟨fun _ => rfl, fun h => (by cases h), fun _ => ⟨seoComponent, rfl, hseo⟩,
        fun h => (by cases h)⟩
  have hinput : Naming.inputNameOf describedModel.globalId = .ok "PageInput" := by decide +kernel
  refine ⟨hexposable, hinput, rfl, ?_⟩
  obtain ⟨types, htypes, ⟨text, description, fields, htext, hparse, hfields⟩, _⟩ :=
    exposure_exact hexposable hinput rfl
  refine ⟨text, description, fields, htext, hparse, ?_⟩
  have hnames : (types .read).map Prod.fst = ["title", "seo"] := Typed.names (htypes .read)
  have hfirsts := congrArg (List.map Prod.fst) hfields
  rw [List.map_map, List.map_map] at hfirsts
  refine hfirsts.trans ?_
  show (identified (types .read)).map Prod.fst = _
  rw [names_identified, hnames]
  rfl

/-- A component whose global id is a name, but has a singular that starts
with a digit. -/
def numberedComponent : Model :=
  { name := .str "_1", globalId := .str "_1", kind := .str "component", uid := .str "_1"
    attributes := [("t", { type := .str "string" })] }

/-- A model with that component. -/
def numberedModel : Model :=
  { name := .str "foo", globalId := .str "Foo"
    attributes := [("c", { type := .str "component", component := .str "_1" })] }

/-- A registry of both. -/
def numberedRegistry : Registry :=
  { components := [(.ofText "_1", numberedComponent)]
    models := [(.ofName "foo", numberedModel)] }

/-- A global id that is a name is not enough for a component: the input
types of a model that refers to it are not read if the name of its input
type is no name. -/
theorem inputModel_unread :
    numberedModel.globalId.IsName
      ∧ Naming.inputNameOf numberedModel.globalId = .ok "FooInput" ∧ isName "FooInput" = true
      ∧ (∀ e ∈ numberedModel.attributes, isName e.1 = true)
      ∧ numberedRegistry.getComponent (.str "_1") = .ok numberedComponent
      ∧ numberedComponent.globalId.IsName
      ∧ ∃ text e, Inputs.inputModel numberedRegistry .all numberedModel numberedModel.globalId false
          = .ok text ∧ Graphql.parse text = .error e := by
  refine ⟨⟨"Foo", rfl, rfl⟩, by decide +kernel, rfl, by decide, rfl, ⟨"_1", rfl, rfl⟩, ?_⟩
  have unread : (Inputs.inputModel numberedRegistry .all numberedModel numberedModel.globalId
      false).toOption.any (fun text => !(Graphql.parse text).toBool) = true := by decide +kernel
  obtain ⟨text, htext⟩ : ∃ text, Inputs.inputModel numberedRegistry .all numberedModel
      numberedModel.globalId false = .ok text := by
    cases htext : Inputs.inputModel numberedRegistry .all numberedModel numberedModel.globalId
        false with
    | error e =>
        rw [htext] at unread
        cases unread
    | ok text => exact ⟨text, rfl⟩
  have hparse := holds_of_eq_ok unread htext
  cases hread : Graphql.parse text with
  | ok d =>
      rw [hread] at hparse
      cases hparse
  | error e => exact ⟨text, e, htext, hread⟩

end Compiler

end ModelSchema
