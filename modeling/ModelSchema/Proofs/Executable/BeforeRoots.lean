/-
What stands in the text of a schema before its root types: the scalars, the
input that names an entity, what is generated for all entries, what is
contributed, and the union of all object types. If the names of all entries
are names, and every contribution is a document, it is a document of its own,
and it defines the object types of the entries and of the contributions
(`exists_beforeRoots`). So it defines no type for queries unless an entry or a
contribution does.
-/
import ModelSchema.Proofs.Joining.Fragments
import ModelSchema.Proofs.Outline.Schema
import ModelSchema.Proofs.Reading.ObjectTypes

namespace ModelSchema

open Graphql (Definition Document NoBody awaitsBody isName parse)

-- ====================================================== declarations alone

namespace Declaration

/-- What is read of a declaration that may stand in a document has a body. -/
theorem awaitsBody_of_read {d : Declaration} (h : d.WellNamed) {x : Definition}
    (hread : d.read = .ok x) : x.awaitsBody = false := by
  obtain ⟨name, body⟩ := d
  obtain ⟨-, hbody⟩ := h
  unfold read at hread
  cases body with
  | enum values =>
      obtain ⟨vs, hvs, rfl⟩ := map_eq_ok.1 hread
      obtain ⟨v, values, rfl⟩ := List.exists_cons_of_ne_nil hbody.1
      obtain ⟨_, _, _, _, rfl⟩ := List.forall₂_cons_left_iff.1 (mapM_eq_ok.1 hvs)
      rfl
  | object description fields =>
      cases hread
      obtain ⟨f, fields, rfl⟩ := List.exists_cons_of_ne_nil hbody.2.1
      rfl
  | input fields =>
      cases hread
      obtain ⟨f, fields, rfl⟩ := List.exists_cons_of_ne_nil hbody.1
      rfl
  | _ =>
      cases hread
      rfl

/-- Declarations that may stand in a document and are not refused are a
document, which leaves no body open and starts with none. -/
theorem exists_document {ds : List Declaration} (hsome : ds ≠ []) (h : ∀ d ∈ ds, d.WellNamed)
    (haccepted : ∀ d ∈ ds, d.Accepted) :
    ∃ xs, parse (texts ds) = .ok xs ∧ Document.objectTypeNames xs = ds.filterMap objectName?
      ∧ awaitsBody (texts ds) = false
      ∧ (Graphql.lex (texts ds)).tokens.head? ≠ some (.punct .braceL) := by
  obtain ⟨xs, hxs⟩ : ∃ xs, ds.mapM read = .ok xs :=
    exists_mapM_iff.2 fun d hd => (exists_read_iff d).2 (haccepted d hd)
  have hparse := (parse_texts hsome h).trans hxs
  refine ⟨xs, hparse, objectTypeNames_of_mapM hxs, ?_, ?_⟩
  · rw [Graphql.awaitsBody_eq hparse, Option.any_eq_false]
    intro x hx
    obtain ⟨d, hd, hread⟩ := mem_of_mem_mapM hxs (List.mem_of_mem_getLast? hx)
    rw [awaitsBody_of_read (h d hd) hread]
  · obtain ⟨d, ds, rfl⟩ := List.exists_cons_of_ne_nil hsome
    obtain ⟨t, ts, hts, ht⟩ := startsItem_tokens (h d List.mem_cons_self)
    rw [Graphql.lex_eq (lexes_texts h), List.flatMap_cons, hts]
    rintro ⟨⟩
    cases ht

end Declaration

-- ================================================================= names

namespace Compiler

open Enums (Declared)

variable {c : Compiler} {os : List Outline} {fs : List Fragment} {ds : List Document}

/-- A payload type is not the type for queries. -/
theorem payloadName_ne_rootQuery (mutation : String) :
    Inputs.payloadName mutation ≠ Morph.rootQuery := by
  intro h
  have hlast := congrArg (fun s : String => s.toList.getLast?) h
  unfold Inputs.payloadName at hlast
  rw [String.toList_append, List.getLast?_append_of_ne_nil _ (by decide)] at hlast
  exact absurd hlast (by decide)

/-- An entry declares the type for queries only if its global id is that
name. -/
theorem rootQuery_notMem_objectNames (hid : ∀ m ∈ c.entries, m.globalId.text ≠ Morph.rootQuery)
    (hos : c.outlines = .ok os) : Morph.rootQuery ∉ (Outline.merge os).objectNames := by
  have hentry : ∀ {m : Model} {object : Declaration} {others : List Declaration}, m ∈ c.entries →
      c.objectDeclaration m = .ok object → (∀ d ∈ others, d.Aside) → ∀ enums key,
      Morph.rootQuery ∉ (entryOutline object enums others key).objectNames := by
    intro m object others hm hobject hothers enums key
    rw [objectNames_entryOutline hobject enums hothers key, List.mem_singleton]
    exact (hid m hm).symm
  have hmerge : ∀ {os : List Outline}, (∀ o ∈ os, Morph.rootQuery ∉ o.objectNames) →
      Morph.rootQuery ∉ (Outline.merge os).objectNames := by
    intro os hall
    rw [Outline.objectNames_merge, List.mem_flatMap]
    rintro ⟨o, ho, hmem⟩
    exact hall o ho hmem
  refine hmerge (forall_outlines ?_ ?_ hos)
  · intro m hm declared o next ho
    obtain ⟨object, types, inputs, key, hobject, _, hinputs, _, rfl, _⟩ := componentOutline_eq_ok ho
    exact hentry hm hobject (aside_inputDeclarations hinputs) _ _
  · intro m hm declared o next ho
    obtain ⟨own, hown, hcase⟩ := modelOutline_eq_ok ho
    obtain ⟨object, types, zones, key, hobject, _, hzones, _, rfl, _⟩ := ownOutline_eq_ok hown
    have hobjectName := hentry hm hobject (aside_zoneDeclarations hzones)
      (Enums.fresh declared types) key
    rcases hcase with ⟨_, rfl⟩ | ⟨operations, _, hoperations, rfl⟩
    · exact hobjectName
    · refine hmerge (List.forall_mem_cons.2 ⟨hobjectName, List.forall_mem_singleton.2 ?_⟩)
      obtain ⟨mutations, hnames, _⟩ := objectNames_operationsOutline hoperations
      rw [hnames, List.mem_map]
      rintro ⟨mutation, _, hname⟩
      exact payloadName_ne_rootQuery mutation hname

/-- The object types that are declared for entries are named by names. -/
theorem Nameable.isName_objectNames (h : c.Nameable) (hos : c.outlines = .ok os) {n : String}
    (hn : n ∈ (Outline.merge os).objectNames) : isName n = true := by
  obtain ⟨⟨name, body⟩, hd, hname⟩ := List.mem_filterMap.1 hn
  have hwell := h.wellNamed_outlines hos _ hd
  cases body with
  | object description fields =>
      cases hname
      exact hwell.name
  | _ => cases hname

/-- The names of the object types that entries declare and contributions
define. -/
def definedNames (os : List Outline) (ds : List Document) : List String :=
  (Outline.merge os).objectNames ++ ds.flatMap Document.objectTypeNames

theorem Nameable.isName_definedNames (h : c.Nameable) (hos : c.outlines = .ok os)
    (hds : Fragment.Documented c.contributed ds) : ∀ n ∈ definedNames os ds, isName n = true := by
  refine List.forall_mem_append.2 ⟨fun n hn => h.isName_objectNames hos hn, fun n hn => ?_⟩
  obtain ⟨e, _, d, hd, hn⟩ := hds.mem_objectTypeNames_iff.1 hn
  exact Graphql.isName_of_mem_objectTypeNames hd hn

/-- The members of the union of a schema are these object types. -/
theorem morphMembers_eq (hnames : c.Nameable) (hos : c.outlines = .ok os)
    (hrenders : List.Forall₂ Outline.Renders os fs) (hds : Fragment.Documented c.contributed ds) :
    (Fragment.merge (fs ++ [c.contributed])).morphMembers
      = (Morph.uniqueNames (definedNames os ds)).map Key.ofText := by
  have htells : Morph.uniqueKeys (Fragment.merge fs).objectTypes
      = Morph.uniqueKeys ((Outline.merge os).objectNames.map Key.ofText) := by
    rw [(Outline.Renders.merge hrenders).objectTypes]
    exact hnames.tells_outlines hos
  unfold Fragment.morphMembers definedNames
  rw [← Morph.uniqueKeys_ofText, List.map_append, ← Morph.uniqueKeys_append_left, ← htells,
    Morph.uniqueKeys_append_left, ← Morph.uniqueKeys_append_right, ← hds.told,
    Fragment.merge_objectTypes, Fragment.merge_objectTypes, Morph.uniqueKeys_append_left,
    Morph.uniqueKeys_uniqueKeys, List.flatMap_append, List.flatMap_singleton]

end Compiler

/-- A compiler for contributions the text of which is told apart: the names of
all entries are names, no enum type is refused, and the contributions are
configured, none of them the body of the one before it. -/
structure Compiler.Legible (c : Compiler) (fs : List Fragment) : Prop where
  contributed : c.contributed = Fragment.merge fs
  names : c.Nameable
  enums : ∀ e ∈ Enums.fresh [] (c.entries.flatMap c.usedEnums), Enums.Spared e.2
  configured : ∀ f ∈ fs, f.Configured
  bodies : c.contributed.definition.IsChain NoBody

-- ==================================================== before the root types

namespace CompiledSchema

variable (s : CompiledSchema)

/-- The union of a schema, if it has members. -/
def unionText : List String :=
  match Morph.definition s.morph with
  | .ok union => if union = "" then [] else [union]
  | .error _ => []

/-- What stands in the text of a schema before its root types. -/
def beforeRoots : String :=
  String.intercalate "\n\n"
    ([Scalar.declarations, Inputs.inputId] ++ s.fragment.definition ++ s.unionText)

variable {s} {c : Compiler} {p q : Progress} {os : List Outline} {ds : List Document}

/-- The scalars are a document of their own. -/
theorem exists_scalars :
    ∃ d, parse Scalar.declarations = .ok d ∧ Document.objectTypeNames d = []
      ∧ awaitsBody Scalar.declarations = false := by
  have hread : ((parse Scalar.declarations).toOption.any fun d =>
      Document.objectTypeNames d = [] && !d.getLast?.any Definition.awaitsBody) = true := by
    decide +kernel
  obtain ⟨d, hd, hcheck⟩ := exists_of_any hread
  obtain ⟨hnone, hbody⟩ := Bool.and_eq_true_iff.1 hcheck
  refine ⟨d, hd, of_decide_eq_true hnone, ?_⟩
  rw [Graphql.awaitsBody_eq hd]
  simpa using hbody

/-- Everything that is declared besides the scalars, if nothing is
contributed: the input that names an entity, and what is declared for the
entries. -/
def generatedText (os : List Outline) : String :=
  Declaration.texts (Outline.inputIdDeclaration :: (Outline.merge os).declarations)

theorem exists_generated (hnames : c.Nameable)
    (henums : ∀ e ∈ Enums.fresh [] (c.entries.flatMap c.usedEnums), Enums.Spared e.2)
    (hos : c.outlines = .ok os) :
    ∃ d, parse (generatedText os) = .ok d
      ∧ Document.objectTypeNames d = (Outline.merge os).objectNames
      ∧ awaitsBody (generatedText os) = false := by
  have hid : ReadableTypes [("id", .nonNull (.of "ID"))] :=
    ReadableTypes.single rfl ⟨⟨rfl, rfl⟩, by decide⟩
  have hinput : Outline.inputIdDeclaration.WellNamed :=
    hid.wellNamed_input (List.cons_ne_nil _ _) rfl
  obtain ⟨d, hd, hobjects, hbody, _⟩ := Declaration.exists_document (List.cons_ne_nil _ _)
    (List.forall_mem_cons.2 ⟨hinput, hnames.wellNamed_outlines hos⟩)
    (List.forall_mem_cons.2 ⟨trivial, (Compiler.accepted_outlines_iff hos).2 henums⟩)
  exact ⟨d, hd, hobjects, hbody⟩

/-- The union of object types that are named by names is a document of its
own, which starts with no body. -/
theorem exists_union {names : List String} (hnames : ∀ n ∈ names, isName n = true)
    (hmorph : s.morph = names.map Key.ofText) (h : c.build.Yields p s q) :
    ∃ ds, List.Forall₂ (fun e d => parse e = .ok d) s.unionText ds
      ∧ ds.flatMap Document.objectTypeNames = []
      ∧ ∀ e ∈ s.unionText, (Graphql.lex e).tokens.head? ≠ some (.punct .braceL) := by
  have htext : s.unionText = (Outline.morphDeclaration
      { objectTypes := s.fragment.objectTypes }).map Declaration.text := by
    obtain ⟨fs, union, _, _, _, _, _, hunion, rfl⟩ := Compiler.build_inv h
    unfold unionText
    rw [hunion]
    exact Outline.morph_texts hunion
  have hmembers : (Outline.morphMembers { objectTypes := s.fragment.objectTypes })
      = names.map Key.ofText := by
    obtain ⟨fs, union, _, _, _, _, _, hunion, rfl⟩ := Compiler.build_inv h
    exact hmorph
  unfold Outline.morphDeclaration at htext
  rw [hmembers, List.map_map] at htext
  cases names with
  | nil =>
      rw [htext]
      exact ⟨[], .nil, rfl, List.forall_mem_nil _⟩
  | cons n names =>
      have hunion : Declaration.WellNamed ⟨.str Morph.unionName, .union (n :: names)⟩ :=
        ⟨(by decide : isName Morph.unionName = true), List.cons_ne_nil n names, hnames⟩
      obtain ⟨d, hd, hobjects, _, hstarts⟩ := Declaration.exists_document (List.cons_ne_nil _ _)
        (List.forall_mem_singleton.2 hunion) (List.forall_mem_singleton.2 trivial)
      have hone : s.unionText
          = [Declaration.texts [⟨.str Morph.unionName, .union (n :: names)⟩]] := by
        have hsame : (n :: names).map ((fun k : Key => k.value.text) ∘ Key.ofText) = n :: names :=
          List.map_id _
        rw [htext, hsame, Declaration.texts, List.map_singleton, String.intercalate_singleton]
        rfl
      rw [hone]
      refine ⟨[d], .cons hd .nil, ?_, List.forall_mem_singleton.2 hstarts⟩
      rw [List.flatMap_singleton, hobjects]
      rfl

/-- The texts before the root types, with those of the entries joined. -/
theorem joined_beforeRoots {generated : List String}
    (h : Joined "\n\n" generated ((Outline.merge os).declarations.map Declaration.text))
    (more : List String) :
    String.intercalate "\n\n" ([Scalar.declarations, Inputs.inputId] ++ (generated ++ more))
      = String.intercalate "\n\n" (Scalar.declarations :: generatedText os :: more) := by
  have hentries : Joined "\n\n" ([Inputs.inputId] ++ generated) [generatedText os] := by
    have hsingle : Joined "\n\n" [generatedText os] _ := Joined.single
      (List.cons_ne_nil Outline.inputIdDeclaration.text
        ((Outline.merge os).declarations.map Declaration.text))
    have hrows := (Joined.refl "\n\n" [Inputs.inputId]).append h
    exact ⟨hrows.1.trans hsingle.1.symm, hrows.2.trans hsingle.2.symm⟩
  exact (((Joined.refl "\n\n" [Scalar.declarations]).append hentries).append
    (Joined.refl "\n\n" more)).1

/-- Where the names of all entries may stand in a document and no enum type
is refused, what stands before the root types of a schema is a document, which
defines the object types of the entries and those of the contributions, if no
contribution is the body of the one before it. -/
theorem exists_beforeRoots (hnames : c.Nameable)
    (henums : ∀ e ∈ Enums.fresh [] (c.entries.flatMap c.usedEnums), Enums.Spared e.2)
    (hds : Fragment.Documented c.contributed ds)
    (hbodies : c.contributed.definition.IsChain NoBody) (h : c.build.Yields p s q) :
    ∃ os d, c.outlines = .ok os ∧ parse s.beforeRoots = .ok d
      ∧ Document.objectTypeNames d = Compiler.definedNames os ds := by
  obtain ⟨fs, union, _, _, rfl, hgenerated, _, hunion, hs⟩ := Compiler.build_inv h
  obtain ⟨os, hos, hrenders⟩ := Compiler.generated_yields rfl hgenerated
  obtain ⟨scalars, hscalars, hnoScalars, hscalarsBody⟩ := exists_scalars
  obtain ⟨entries, hentries, hentryObjects, hentriesBody⟩ := exists_generated hnames henums hos
  have hmorph : s.morph = (Morph.uniqueNames (Compiler.definedNames os ds)).map Key.ofText := by
    rw [hs]
    exact Compiler.morphMembers_eq hnames hos hrenders hds
  obtain ⟨unions, hunions, hnoUnion, hstarts⟩ := exists_union
    (fun n hn => hnames.isName_definedNames hos hds n (Morph.mem_uniqueNames.1 hn).1) hmorph h
  have hdefinition : s.fragment.definition
      = (Fragment.merge fs).definition ++ c.contributed.definition := by
    rw [hs]
    exact Fragment.definition_concat fs c.contributed
  have htext : s.beforeRoots = String.intercalate "\n\n" (Scalar.declarations :: generatedText os
      :: (c.contributed.definition ++ s.unionText)) := by
    unfold beforeRoots
    rw [hdefinition, List.append_assoc, List.append_assoc]
    exact joined_beforeRoots (Outline.Renders.merge hrenders).definition _
  have hdocuments : List.Forall₂ (fun e d => parse e = .ok d) (Scalar.declarations
      :: generatedText os :: (c.contributed.definition ++ s.unionText))
      (scalars :: entries :: (ds ++ unions)) :=
    .cons hscalars (.cons hentries (List.rel_append hds.parses hunions))
  -- only a contribution may wait for a body, and the union is none
  have hchain : (Scalar.declarations :: generatedText os
      :: (c.contributed.definition ++ s.unionText)).IsChain NoBody := by
    have hunionPairs : s.unionText.Pairwise NoBody :=
      List.pairwise_of_forall_mem_list fun _ _ e he _ => hstarts e he
    refine List.isChain_cons_cons.2 ⟨Graphql.noBody_of_settled hscalarsBody _,
      List.isChain_cons.2 ⟨fun e _ => Graphql.noBody_of_settled hentriesBody e,
        List.isChain_append.2 ⟨hbodies, hunionPairs.isChain, fun _ _ e he _ => ?_⟩⟩⟩
    exact hstarts e (List.mem_of_mem_head? he)
  refine ⟨os, _, hos, htext ▸ Graphql.parse_lines hdocuments hchain, ?_⟩
  rw [Graphql.Document.objectTypeNames_flatten, List.flatMap_cons, List.flatMap_cons,
    List.flatMap_append, hnoScalars, hentryObjects, hnoUnion, List.nil_append, List.append_nil]
  rfl

/-- What stands before the root types is a document, if compiler and
contributions are legible; it defines a type for queries exactly if a
contributed entry does, unless a global id is that name. -/
theorem exists_legible {fs : List Fragment} (hc : c.Legible fs)
    (hids : ∀ m ∈ c.entries, m.globalId ≠ .str Morph.rootQuery) (h : c.build.Yields p s q) :
    ∃ d, parse s.beforeRoots = .ok d ∧ (Morph.rootQuery ∈ Document.objectTypeNames d
      ↔ ∃ f ∈ fs, ∃ e ∈ f.definition, ∃ d', parse e = .ok d'
        ∧ Morph.rootQuery ∈ Document.objectTypeNames d') := by
  obtain ⟨ds, hds⟩ := Fragment.exists_documented_merge hc.configured
  rw [← hc.contributed] at hds
  obtain ⟨os, d, hos, hd, hobjects⟩ := exists_beforeRoots hc.names hc.enums hds hc.bodies h
  have hnone : Morph.rootQuery ∉ (Outline.merge os).objectNames := by
    refine Compiler.rootQuery_notMem_objectNames (fun m hm htext => ?_) hos
    obtain ⟨id, hid, _⟩ := hc.names.globalId m hm
    rw [hid] at htext
    exact hids m hm (hid.trans (congrArg Value.str htext))
  refine ⟨d, hd, ?_⟩
  rw [hobjects, Compiler.definedNames, List.mem_append, or_iff_right hnone,
    hds.mem_objectTypeNames_iff, hc.contributed, Fragment.merge_definition]
  constructor
  · rintro ⟨e, he, hquery⟩
    obtain ⟨f, hf, he⟩ := List.mem_flatMap.1 he
    exact ⟨f, hf, e, he, hquery⟩
  · rintro ⟨f, hf, e, he, hquery⟩
    exact ⟨e, List.mem_flatMap.2 ⟨f, hf, he⟩, hquery⟩

end CompiledSchema

end ModelSchema
