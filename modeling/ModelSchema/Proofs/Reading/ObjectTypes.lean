/-
Object types told in two ways. A schema tells the names of its object types
while it is made, and a parser finds them in the text of its declarations.
Whatever is found is what is told, in the same order, and it is found
exactly if no enum type has a value that is a reserved word with a line
feed after it (`build_objectTypes_iff`): such a value passes for a name, and
the parser refuses the word.
-/
import ModelSchema.Proofs.Reading.Documents
import ModelSchema.Proofs.Reading.Entries

namespace ModelSchema

open Graphql (Definition SyntaxFault isName)

namespace Declaration

-- ================================================= names found in documents

/-- The name of an object type that is declared. -/
def objectName? (d : Declaration) : Option String :=
  match d.body with
  | .object _ _ => some d.name.text
  | _ => none

/-- A declaration that is not refused: no value of an enum is a
reserved word. -/
def Accepted (d : Declaration) : Prop :=
  match d.body with
  | .enum values => ∀ v ∈ values, Enums.withoutLineFeed v ∉ Enums.reserved
  | _ => True

theorem exists_readValue_iff (v : String) :
    (∃ value, readValue v = .ok value) ↔ Enums.withoutLineFeed v ∉ Enums.reserved := by
  unfold readValue
  by_cases hreserved : Enums.reserved.contains (Enums.withoutLineFeed v) = true
  · simp only [hreserved, if_true]
    exact ⟨fun ⟨_, h⟩ => (by cases h), fun h => absurd (List.contains_iff_mem.1 hreserved) h⟩
  · simp only [hreserved]
    exact ⟨fun _ hmem => hreserved (List.contains_iff_mem.2 hmem), fun _ => ⟨_, rfl⟩⟩

/-- A declaration is read unless it is refused. -/
theorem exists_read_iff (d : Declaration) :
    (∃ x, d.read = .ok x) ↔ d.Accepted := by
  obtain ⟨name, body⟩ := d
  unfold read Accepted
  cases body with
  | enum values =>
      have hvalues : (∃ vs, values.mapM readValue = .ok vs)
          ↔ ∀ v ∈ values, Enums.withoutLineFeed v ∉ Enums.reserved := by
        rw [exists_mapM_iff]
        exact forall₂_congr fun v _ => exists_readValue_iff v
      refine Iff.trans ?_ hvalues
      constructor
      · rintro ⟨x, hx⟩
        obtain ⟨vs, hvs, _⟩ := map_eq_ok.1 hx
        exact ⟨vs, hvs⟩
      · rintro ⟨vs, hvs⟩
        exact ⟨_, map_eq_ok.2 ⟨vs, hvs, rfl⟩⟩
  | _ => exact ⟨fun _ => trivial, fun _ => ⟨_, rfl⟩⟩

/-- What is read of an object type has its name. -/
theorem objectTypeName_of_read {d : Declaration} {x : Definition} (h : d.read = .ok x) :
    x.objectTypeName? = d.objectName? := by
  obtain ⟨name, body⟩ := d
  unfold read at h
  cases body with
  | enum values =>
      obtain ⟨vs, _, rfl⟩ := map_eq_ok.1 h
      rfl
  | _ =>
      cases h
      rfl

theorem objectTypeNames_of_mapM {ds : List Declaration} {xs : List Definition}
    (h : ds.mapM read = .ok xs) :
    Graphql.Document.objectTypeNames xs = ds.filterMap objectName? := by
  unfold Graphql.Document.objectTypeNames
  replace h := mapM_eq_ok.1 h
  induction h with
  | nil => rfl
  | cons hread _ ih =>
      rw [List.filterMap_cons, List.filterMap_cons, objectTypeName_of_read hread, ih]

theorem exists_not_blank (d : Declaration) : ∃ c ∈ d.text.toList, Text.isBlank c = false := by
  obtain ⟨name, body⟩ := d
  have block : ∀ keyword body description : String,
      ∃ c ∈ (Sdl.renderBlock keyword name.text body description).toList,
        Text.isBlank c = false := by
    intro keyword body description
    refine ⟨'\x7d', ?_, by decide⟩
    unfold Sdl.renderBlock
    rw [String.toList_append]
    exact List.mem_append_right _ (List.mem_cons_of_mem _ List.mem_cons_self)
  unfold text
  cases body with
  | scalar => exact ⟨'s', by simp, by decide⟩
  | union members => exact ⟨'u', by simp, by decide⟩
  | _ => exact block _ _ _

theorem isBlankText_texts {ds : List Declaration} (hsome : ds ≠ []) :
    Text.isBlankText (texts ds) = false := by
  cases ds with
  | nil => exact absurd rfl hsome
  | cons d ds =>
      obtain ⟨c, hc, hblank⟩ := d.exists_not_blank
      have hmem : c ∈ (texts (d :: ds)).toList := by
        unfold texts
        cases ds with
        | nil => simpa using hc
        | cons d' ds =>
            rw [List.map_cons, List.map_cons, String.intercalate_cons_cons, String.toList_append,
              String.toList_append]
            exact List.mem_append_left _ (List.mem_append_left _ hc)
      unfold Text.isBlankText
      rw [List.all_eq_false]
      exact ⟨c, hmem, by rw [hblank]; exact Bool.false_ne_true⟩

/-- The object types that are found in the text of declarations are those
that are declared, if none of them is refused. -/
theorem objectTypes_texts {ds : List Declaration} (h : ∀ d ∈ ds, d.WellNamed)
    (names : List String) :
    Morph.objectTypes (texts ds) = .ok names
      ↔ (∀ d ∈ ds, d.Accepted) ∧ names = Morph.uniqueNames (ds.filterMap objectName?) := by
  have accepted : (∃ xs, ds.mapM read = .ok xs) ↔ ∀ d ∈ ds, d.Accepted := by
    rw [exists_mapM_iff]
    exact forall₂_congr fun d _ => d.exists_read_iff
  rw [← accepted]
  unfold Morph.objectTypes
  by_cases hsome : ds = []
  · subst hsome
    have hblank : Text.isBlankText (texts []) = true := rfl
    rw [if_pos hblank]
    exact ⟨fun h => ⟨⟨[], rfl⟩, (Except.ok.inj h).symm⟩, fun h => congrArg Except.ok h.2.symm⟩
  · rw [if_neg (by rw [isBlankText_texts hsome]; exact Bool.false_ne_true), parse_texts hsome h]
    cases hread : ds.mapM read with
    | error e => exact ⟨fun h => (by cases h), fun ⟨⟨_, h⟩, _⟩ => (by cases h)⟩
    | ok xs =>
        dsimp only
        rw [objectTypeNames_of_mapM hread]
        exact ⟨fun h => ⟨⟨xs, rfl⟩, (Except.ok.inj h).symm⟩, fun h => congrArg Except.ok h.2.symm⟩

end Declaration

-- ======================================================= refused enum types

namespace Enums

/-- Values none of which is a reserved word with a line feed after it. -/
def Spared (values : List Value) : Prop := ∀ w ∈ reserved, w ++ "\n" ∉ texts values

instance (values : List Value) : Decidable (Spared values) :=
  inferInstanceAs (Decidable (∀ w ∈ reserved, w ++ "\n" ∉ texts values))

theorem withoutLineFeed_lineFeed (s : String) : withoutLineFeed (s ++ "\n") = s := by
  have htext : (s ++ "\n").toList = s.toList ++ ['\n'] := String.toList_append
  unfold withoutLineFeed
  rw [htext, List.getLast?_concat, if_pos rfl, List.dropLast_concat, String.ofList_toList]

/-- A reserved word passes for a value if a line feed comes after it. -/
theorem isUsable_lineFeed {w : String} (h : w ∈ reserved) : isUsable (w ++ "\n") = true := by
  have hname : ∀ w ∈ reserved, isName w = true := by decide
  have hnew : ∀ w ∈ reserved, (!reserved.contains (w ++ "\n")) = true := by decide
  unfold isUsable
  rw [withoutLineFeed_lineFeed, hname w h, hnew w h]
  rfl

/-- An enum type is refused exactly if it has such a value. -/
theorem accepted_declaration_iff (e : Key × List Value) :
    (declaration e).Accepted ↔ Spared e.2 := by
  have husable : (declaration e).Accepted ↔ ∀ v ∈ usable e.2, withoutLineFeed v ∉ reserved := by
    unfold declaration Declaration.Accepted
    by_cases hempty : usable e.2 = []
    · simp [hempty]
    · simp [hempty]
  rw [husable]
  constructor
  · intro h w hw hmem
    refine h (w ++ "\n") (List.mem_filter.2 ⟨hmem, isUsable_lineFeed hw⟩) ?_
    rwa [withoutLineFeed_lineFeed]
  · intro h v hv hreserved
    obtain ⟨hmem, hpass⟩ := List.mem_filter.1 hv
    rcases Declaration.eq_withoutLineFeed v with hsame | hended
    · have hnew : reserved.contains v = false := by
        simpa using ((Bool.and_eq_true _ _).mp hpass).2
      rw [← hsame, ← List.contains_iff_mem, hnew] at hreserved
      cases hreserved
    · rw [hended] at hmem
      exact h _ hreserved hmem

end Enums

-- ============================================================== outlines

namespace Outline

/-- The names of the object types that an outline declares. -/
def objectNames (o : Outline) : List String := o.declarations.filterMap Declaration.objectName?

/-- An outline that tells the object types that it declares. -/
def Tells (o : Outline) : Prop :=
  Morph.uniqueKeys o.objectTypes = Morph.uniqueKeys (o.objectNames.map Key.ofText)

/-- An outline none of whose declarations is refused. -/
def Accepted (o : Outline) : Prop := ∀ d ∈ o.declarations, d.Accepted

variable {os : List Outline}

theorem objectNames_merge (os : List Outline) : (merge os).objectNames = os.flatMap objectNames :=
  List.filterMap_flatMap

theorem tells_merge (h : ∀ o ∈ os, o.Tells) : (merge os).Tells := by
  unfold Tells
  rw [objectNames_merge, List.map_flatMap]
  exact (Morph.uniqueKeys_uniqueKeys _).trans (Morph.uniqueKeys_flatMap_congr h)

theorem accepted_merge_iff : (merge os).Accepted ↔ ∀ o ∈ os, o.Accepted := by
  unfold Accepted merge
  simp only [List.forall_mem_flatMap]

end Outline

/-- A declaration that is no object type and no enum type. -/
def Declaration.Aside (d : Declaration) : Prop :=
  match d.body with
  | .object _ _ | .enum _ => False
  | _ => True

theorem Declaration.Aside.objectName {d : Declaration} (h : d.Aside) : d.objectName? = none := by
  obtain ⟨name, body⟩ := d
  cases body with
  | object description fields => exact h.elim
  | _ => rfl

theorem Declaration.Aside.accepted {d : Declaration} (h : d.Aside) : d.Accepted := by
  obtain ⟨name, body⟩ := d
  cases body with
  | enum values => exact h.elim
  | _ => trivial

namespace Compiler

open Enums (Declared)

variable {c : Compiler} {m : Model} {declared next : Declared} {o : Outline}

-- =============================================================== entries

theorem objectDeclaration_eq_ok {d : Declaration} (h : c.objectDeclaration m = .ok d) :
    ∃ description fields, d = ⟨m.globalId, .object description fields⟩ := by
  obtain ⟨types, _, h⟩ := bind_eq_ok.1 h
  obtain ⟨key, _, h⟩ := bind_eq_ok.1 h
  cases h
  exact ⟨_, _, rfl⟩

theorem aside_inputDeclarations {r : Registry} {visibility : Visibility} {name : Value}
    {allowIds : Bool} {ds : List Declaration}
    (h : Inputs.inputDeclarations r visibility m name allowIds = .ok ds) :
    ∀ d ∈ ds, d.Aside := by
  obtain ⟨inputName, create, edit, _, _, rfl⟩ := Inputs.inputDeclarations_eq_ok _ _ h
  exact List.forall_mem_cons.2 ⟨trivial, List.forall_mem_singleton.2 trivial⟩

theorem aside_zonePair {r : Registry} {e : String × Attribute} {ds : List Declaration}
    (h : zonePair r m.globalId e = .ok ds) : ∀ d ∈ ds, d.Aside := by
  obtain ⟨found, _, h⟩ := bind_eq_ok.1 h
  split at h
  · cases h
    exact List.forall_mem_cons.2 ⟨trivial, List.forall_mem_singleton.2 trivial⟩
  · obtain ⟨named, _, h⟩ := bind_eq_ok.1 h
    cases h
    exact List.forall_mem_cons.2 ⟨trivial, List.forall_mem_singleton.2 trivial⟩

theorem aside_zoneDeclarations {ds : List Declaration} (h : c.zoneDeclarations m = .ok ds) :
    ∀ d ∈ ds, d.Aside := by
  obtain ⟨pairs, hpairs, rfl⟩ := map_eq_ok.1 h
  intro d hd
  obtain ⟨pair, hpair, hd⟩ := List.mem_flatten.1 hd
  obtain ⟨e, _, hpairOf⟩ := mem_of_mem_mapM hpairs hpair
  exact aside_zonePair hpairOf d hd

section

variable {object : Declaration} {others : List Declaration}

theorem objectNames_entryOutline (hobject : c.objectDeclaration m = .ok object)
    (enums : List (Key × List Value)) (hothers : ∀ d ∈ others, d.Aside) (key : Key) :
    (entryOutline object enums others key).objectNames = [m.globalId.text] := by
  have henums : (enums.map Enums.declaration).filterMap Declaration.objectName? = [] := by
    rw [List.filterMap_eq_nil_iff]
    intro d hd
    obtain ⟨e, _, rfl⟩ := List.mem_map.1 hd
    unfold Enums.declaration Declaration.objectName?
    split
    · next hbody => split at hbody <;> cases hbody
    · rfl
  have hnone : others.filterMap Declaration.objectName? = [] :=
    List.filterMap_eq_nil_iff.2 fun d hd => (hothers d hd).objectName
  obtain ⟨description, fields, rfl⟩ := objectDeclaration_eq_ok hobject
  unfold Outline.objectNames entryOutline
  rw [List.cons_append, List.filterMap_cons, List.filterMap_append, henums, hnone]
  rfl

/-- An entry tells its object type. -/
theorem tells_entryOutline (hid : m.globalId.IsName) (hobject : c.objectDeclaration m = .ok object)
    (enums : List (Key × List Value)) (hothers : ∀ d ∈ others, d.Aside) {key : Key}
    (hkey : m.globalId.key = .ok key) : (entryOutline object enums others key).Tells := by
  obtain ⟨s, hs, _⟩ := hid
  unfold Outline.Tells
  rw [objectNames_entryOutline hobject enums hothers key, hs]
  rw [hs] at hkey
  cases hkey
  rfl

/-- What an entry declares of itself is refused only for its enum types. -/
theorem accepted_entryOutline_iff (hobject : c.objectDeclaration m = .ok object)
    (enums : List (Key × List Value)) (hothers : ∀ d ∈ others, d.Aside) (key : Key) :
    (entryOutline object enums others key).Accepted ↔ ∀ e ∈ enums, Enums.Spared e.2 := by
  obtain ⟨description, fields, rfl⟩ := objectDeclaration_eq_ok hobject
  unfold Outline.Accepted entryOutline
  rw [List.forall_mem_append, List.forall_mem_cons, List.forall_mem_map]
  simp only [Enums.accepted_declaration_iff]
  exact ⟨fun h => h.1.2, fun h => ⟨⟨trivial, h⟩, fun d hd => (hothers d hd).accepted⟩⟩

end

/-- Of the types of a mutation, the payload is an object type. -/
theorem objectName_mutationDeclarations (m : Model) (singular inputName mutation : String)
    (action : Inputs.Action) :
    (Inputs.mutationDeclarations m singular inputName mutation action).filterMap
        Declaration.objectName? = [Inputs.payloadName mutation]
      ∧ ∀ d ∈ Inputs.mutationDeclarations m singular inputName mutation action, d.Accepted := by
  unfold Inputs.mutationDeclarations
  dsimp only
  split
  · exact ⟨rfl, List.forall_mem_singleton.2 trivial⟩
  · exact ⟨rfl, List.forall_mem_cons.2 ⟨trivial, List.forall_mem_singleton.2 trivial⟩⟩

/-- The inputs of the operations of a model are no object types and no enum
types. -/
theorem aside_inputsOf {mutations : List (String × Inputs.Action)} {inputs : List Declaration}
    (h : c.inputsOf m mutations = .ok inputs) : ∀ d ∈ inputs, d.Aside := by
  unfold inputsOf at h
  split at h
  · cases h
    exact List.forall_mem_nil _
  · exact aside_inputDeclarations h

/-- The object types of the operations of a model are the payloads of its
mutations. -/
theorem objectNames_operationsOutline (h : c.operationsOutline m = .ok o) :
    ∃ mutations : List String, o.objectNames = mutations.map Inputs.payloadName
      ∧ o.objectTypes = o.objectNames.map Key.ofText := by
  obtain ⟨singular, _, h⟩ := bind_eq_ok.1 h
  obtain ⟨fields, _, h⟩ := bind_eq_ok.1 h
  obtain ⟨inputs, hinputs, h⟩ := bind_eq_ok.1 h
  cases h
  have hnone : inputs.filterMap Declaration.objectName? = [] :=
    List.filterMap_eq_nil_iff.2 fun d hd => (aside_inputsOf hinputs d hd).objectName
  let inputName := Naming.upperFirst singular ++ "Input"
  have hnames : (inputs ++ (c.mutations m singular).flatMap fun e =>
        Inputs.mutationDeclarations m singular inputName e.1 e.2).filterMap Declaration.objectName?
      = ((c.mutations m singular).map Prod.fst).map Inputs.payloadName := by
    rw [List.filterMap_append, hnone, List.filterMap_flatMap, List.nil_append, List.map_map,
      List.map_eq_flatMap]
    exact List.flatMap_congr fun e _ => (objectName_mutationDeclarations m singular _ e.1 e.2).1
  refine ⟨_, hnames, Eq.trans ?_ (congrArg (List.map Key.ofText) hnames).symm⟩
  rw [List.map_map, List.map_map]
  rfl

/-- The operations of a model tell their object types, and none of their
declarations is refused. -/
theorem tells_operationsOutline (h : c.operationsOutline m = .ok o) : o.Tells ∧ o.Accepted := by
  refine ⟨?_, ?_⟩
  · obtain ⟨_, _, htypes⟩ := objectNames_operationsOutline h
    exact congrArg Morph.uniqueKeys htypes
  · obtain ⟨singular, _, h⟩ := bind_eq_ok.1 h
    obtain ⟨fields, _, h⟩ := bind_eq_ok.1 h
    obtain ⟨inputs, hinputs, h⟩ := bind_eq_ok.1 h
    cases h
    refine List.forall_mem_append.2
      ⟨fun d hd => (aside_inputsOf hinputs d hd).accepted, fun d hd => ?_⟩
    obtain ⟨e, _, hd⟩ := List.mem_flatMap.1 hd
    exact (objectName_mutationDeclarations m singular _ e.1 e.2).2 d hd

theorem tells_componentOutline (hid : m.globalId.IsName)
    (h : c.componentOutline declared m = .ok (o, next)) : o.Tells := by
  obtain ⟨object, types, inputs, key, hobject, _, hinputs, hkey, rfl, _⟩ := componentOutline_eq_ok h
  exact tells_entryOutline hid hobject _ (aside_inputDeclarations hinputs) hkey

theorem tells_modelOutline (hid : m.globalId.IsName)
    (h : c.modelOutline declared m = .ok (o, next)) : o.Tells := by
  obtain ⟨own, hown, hcase⟩ := modelOutline_eq_ok h
  obtain ⟨object, types, zones, key, hobject, _, hzones, hkey, rfl, _⟩ := ownOutline_eq_ok hown
  have hentry := tells_entryOutline hid hobject (Enums.fresh declared types)
    (aside_zoneDeclarations hzones) hkey
  rcases hcase with ⟨_, rfl⟩ | ⟨operations, _, hoperations, rfl⟩
  · exact hentry
  · refine Outline.tells_merge (List.forall_mem_cons.2 ⟨hentry, List.forall_mem_singleton.2 ?_⟩)
    exact (tells_operationsOutline hoperations).1

/-- The outline of a component is refused exactly for an enum type that it
is the first to use. -/
theorem accepted_componentOutline_iff (h : c.componentOutline declared m = .ok (o, next)) :
    (o.Accepted ↔ ∀ e ∈ Enums.fresh declared (c.usedEnums m), Enums.Spared e.2)
      ∧ next = Enums.after declared (c.usedEnums m) := by
  obtain ⟨object, types, inputs, key, hobject, htypes, hinputs, _, rfl, rfl⟩ :=
    componentOutline_eq_ok h
  rw [usedEnums_of_eq_ok htypes]
  exact ⟨accepted_entryOutline_iff hobject _ (aside_inputDeclarations hinputs) key, rfl⟩

theorem accepted_modelOutline_iff (h : c.modelOutline declared m = .ok (o, next)) :
    (o.Accepted ↔ ∀ e ∈ Enums.fresh declared (c.usedEnums m), Enums.Spared e.2)
      ∧ next = Enums.after declared (c.usedEnums m) := by
  obtain ⟨own, hown, hcase⟩ := modelOutline_eq_ok h
  obtain ⟨object, types, zones, key, hobject, htypes, hzones, _, rfl, rfl⟩ :=
    ownOutline_eq_ok hown
  have hentry := accepted_entryOutline_iff hobject (Enums.fresh declared types)
    (aside_zoneDeclarations hzones) key
  rw [usedEnums_of_eq_ok htypes]
  refine ⟨?_, rfl⟩
  rcases hcase with ⟨_, rfl⟩ | ⟨operations, _, hoperations, rfl⟩
  · exact hentry
  · rw [Outline.accepted_merge_iff, List.forall_mem_cons, List.forall_mem_singleton, hentry]
    exact and_iff_left (tells_operationsOutline hoperations).2

-- ================================================================ the run

/-- If the outline of every entry is refused for the enum types that it is
the first to use, those of a row of entries are refused for all of
these. -/
theorem accepted_outlinesFrom_iff {outline : Declared → Model → Except Fault (Outline × Declared)}
    (step : ∀ {declared m o next}, outline declared m = .ok (o, next) →
      (o.Accepted ↔ ∀ e ∈ Enums.fresh declared (c.usedEnums m), Enums.Spared e.2)
        ∧ next = Enums.after declared (c.usedEnums m))
    {ms : List Model} {last : Declared} {os : List Outline}
    (h : outlinesFrom outline declared ms = .ok (os, last)) :
    ((∀ o ∈ os, o.Accepted)
        ↔ ∀ e ∈ Enums.fresh declared (ms.flatMap c.usedEnums), Enums.Spared e.2)
      ∧ last = Enums.after declared (ms.flatMap c.usedEnums) := by
  induction ms generalizing declared os with
  | nil =>
      cases h
      exact ⟨⟨fun _ e he => (by cases he), fun _ o ho => (by cases ho)⟩, rfl⟩
  | cons m ms ih =>
      obtain ⟨⟨o, next⟩, ho, h⟩ := bind_eq_ok.1 h
      obtain ⟨⟨os', last'⟩, hos, h⟩ := bind_eq_ok.1 h
      cases h
      obtain ⟨hhead, rfl⟩ := step ho
      obtain ⟨htail, hlast⟩ := ih hos
      rw [List.flatMap_cons, Enums.fresh_append, Enums.after_append, List.forall_mem_cons,
        List.forall_mem_append, hhead, htail]
      exact ⟨Iff.rfl, hlast⟩

/-- The outlines of all entries are refused exactly for the enum types that
the schema declares. -/
theorem accepted_outlines_iff {os : List Outline} (h : c.outlines = .ok os) :
    (Outline.merge os).Accepted
      ↔ ∀ e ∈ Enums.fresh [] (c.entries.flatMap c.usedEnums), Enums.Spared e.2 := by
  obtain ⟨⟨components, declared⟩, hcomponents, h⟩ := bind_eq_ok.1 h
  obtain ⟨⟨models, last⟩, hmodels, h⟩ := bind_eq_ok.1 h
  cases h
  obtain ⟨hfirst, rfl⟩ := accepted_outlinesFrom_iff accepted_componentOutline_iff hcomponents
  obtain ⟨hsecond, _⟩ := accepted_outlinesFrom_iff accepted_modelOutline_iff hmodels
  unfold entries
  rw [Outline.accepted_merge_iff, List.forall_mem_append, hfirst, hsecond, List.flatMap_append,
    Enums.fresh_append, List.forall_mem_append]

/-- All entries tell the object types that they declare. -/
theorem Nameable.tells_outlines (h : c.Nameable) {os : List Outline} (hos : c.outlines = .ok os) :
    (Outline.merge os).Tells := by
  refine Outline.tells_merge (forall_outlines (fun m hm => ?_) (fun m hm => ?_) hos)
  · exact tells_componentOutline (h.globalId m hm)
  · exact tells_modelOutline (h.globalId m hm)

-- ====================================================== told and found

/-- Where the names of all entries may stand in a document, exactly the
members of the union of a schema are found in the text of its declarations,
if none of its enum types is refused; otherwise nothing is found. -/
theorem objectTypes_definition {r : Registry} {visibility : Option Visibility} {config : Config}
    (hnames : (ofRegistry r visibility config).Nameable) {p q : Progress} {s : CompiledSchema}
    (h : (ofRegistry r visibility config).build.Yields p s q) :
    ∃ told : List String, told.map Key.ofText = s.morph ∧ ∀ names,
      Morph.objectTypes (String.intercalate "\n\n" s.fragment.definition) = .ok names
        ↔ (∀ e ∈ Enums.fresh [] ((ofRegistry r visibility config).entries.flatMap
            (ofRegistry r visibility config).usedEnums), Enums.Spared e.2) ∧ names = told := by
  obtain ⟨o, ho, hrenders, _⟩ := build_yields rfl h
  obtain ⟨os, hos, rfl⟩ := map_eq_ok.1 ho
  have htext : String.intercalate "\n\n" s.fragment.definition
      = Declaration.texts (Outline.merge os).declarations := hrenders.definition.1
  have hmorph : s.morph = (Outline.merge os).morphMembers := by
    obtain ⟨_, _, _, _, _, _, _, _, rfl⟩ := build_inv h
    exact congrArg Morph.uniqueKeys hrenders.objectTypes
  have htells : (Outline.merge os).morphMembers
      = (Morph.uniqueNames (Outline.merge os).objectNames).map Key.ofText :=
    (hnames.tells_outlines hos).trans (Morph.uniqueKeys_ofText _)
  refine ⟨_, (hmorph.trans htells).symm, ?_⟩
  rw [htext, ← accepted_outlines_iff hos]
  exact Declaration.objectTypes_texts (hnames.wellNamed_outlines hos)

/-- The object types that are found in the text of a schema's declarations
are the members of its union, in the same order; and the text is read
exactly if no enum type that the schema declares has a value that is a
reserved word with a line feed after it. -/
theorem build_objectTypes_iff (r : Registry) (visibility : Option Visibility) (config : Config)
    (hnames : (ofRegistry r visibility config).Nameable) {p q : Progress} {s : CompiledSchema}
    (h : (ofRegistry r visibility config).build.Yields p s q) :
    (∀ names, Morph.objectTypes (String.intercalate "\n\n" s.fragment.definition) = .ok names →
        names.map Key.ofText = s.morph)
      ∧ ((∃ names, Morph.objectTypes (String.intercalate "\n\n" s.fragment.definition) = .ok names)
        ↔ ∀ e ∈ Enums.fresh [] ((ofRegistry r visibility config).entries.flatMap
            (ofRegistry r visibility config).usedEnums), Enums.Spared e.2) := by
  obtain ⟨told, htold, hfound⟩ := objectTypes_definition hnames h
  refine ⟨fun names hread => ?_, fun ⟨names, hread⟩ => ?_, fun hspared => ?_⟩
  · rw [((hfound names).1 hread).2]
    exact htold
  · exact ((hfound names).1 hread).1
  · exact ⟨told, (hfound told).2 ⟨hspared, rfl⟩⟩

/-- A model with an enumeration. -/
def enumModel (values : List Value) : Model :=
  { name := .str "m", globalId := .str "M"
    attributes := [("e", { type := .str "enumeration", enum := values })] }

/-- A registry of that model. -/
def enumRegistry (values : List Value) : Registry :=
  { models := [(.ofName "m", enumModel values)]
    claims := [(.ofText "M", .str "m")] }

theorem nameable_enumRegistry (values : List Value) :
    (ofRegistry (enumRegistry values) none {}).Nameable := by
  have hfield : isName "e" = true := by decide
  have hsingular : isName (Naming.toSingular "M") = true := by decide +kernel
  have henum : isName ("ENUM_" ++ Text.upper "M" ++ "_" ++ Text.upper "e") = true := by
    decide +kernel
  refine ⟨List.forall_mem_singleton.2 ⟨"M", rfl, rfl⟩, List.forall_mem_singleton.2 hsingular,
    List.forall_mem_singleton.2 fun e he => ?_, List.forall_mem_singleton.2 fun e he n hn => ?_⟩
  · cases List.mem_singleton.1 he
    exact hfield
  · cases List.mem_singleton.1 he
    cases hn
    exact ⟨_, rfl, henum⟩

theorem build_objectTypes_iff_status :
    ∃ s q names,
      (ofRegistry (enumRegistry [.str "draft", .str "1a"]) none {}).build.Yields {} s q
      ∧ Morph.objectTypes (String.intercalate "\n\n" s.fragment.definition) = .ok names
      ∧ names.map Key.ofText = s.morph := by
  obtain ⟨s, q, h⟩ := Work.exists_yields
    (w := (ofRegistry (enumRegistry [.str "draft", .str "1a"]) none {}).build) (p := {})
    (by decide +kernel)
  obtain ⟨told, found⟩ := build_objectTypes_iff _ none {} (nameable_enumRegistry _) h
  obtain ⟨names, hnames⟩ := found.2 (by decide +kernel)
  exact ⟨s, q, names, h, hnames, told names hnames⟩

/-- A schema that is compiled though its text is not read: a line feed after
a reserved word lets it pass for a value. -/
theorem enum_unread :
    Registry.empty.register (enumModel [.str "true\n"]) = .ok (enumRegistry [.str "true\n"])
      ∧ (ofRegistry (enumRegistry [.str "true\n"]) none {}).Nameable
      ∧ ∃ s q e, (ofRegistry (enumRegistry [.str "true\n"]) none {}).build.Yields {} s q
        ∧ Morph.objectTypes (String.intercalate "\n\n" s.fragment.definition) = .error e := by
  refine ⟨rfl, nameable_enumRegistry _, ?_⟩
  obtain ⟨s, q, h⟩ := Work.exists_yields
    (w := (ofRegistry (enumRegistry [.str "true\n"]) none {}).build) (p := {}) (by decide +kernel)
  have refused : ¬ ∀ e ∈ Enums.fresh []
      ((ofRegistry (enumRegistry [.str "true\n"]) none {}).entries.flatMap
        (ofRegistry (enumRegistry [.str "true\n"]) none {}).usedEnums), Enums.Spared e.2 := by
    decide +kernel
  obtain ⟨told, _, hfound⟩ := objectTypes_definition (nameable_enumRegistry _) h
  cases hread : Morph.objectTypes (String.intercalate "\n\n" s.fragment.definition) with
  | ok names => exact absurd ((hfound names).1 hread).1 refused
  | error e => exact ⟨s, q, e, h, hread⟩

end Compiler

end ModelSchema
