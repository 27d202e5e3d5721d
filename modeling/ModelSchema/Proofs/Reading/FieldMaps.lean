/-
Field maps as they are read back. An entry stands for a field: its key is the
name of the field and the list of its arguments, its value the type; an
operation may keep its arguments in a map of its own instead. What is said of
the field comes from the configurations, and of what they leave open from the
attribute of its name. The rows of a field map are read as one field for each
entry, in order (`parse_renderConfigured`).

The lines of a body are cut at more line ends than a document has. So the
texts of arguments and types must have none of the others, or a string in
them comes apart (`parse_renderConfigured_separator`).
-/
import Mathlib
import ModelSchema.Proofs.Reading.Names
import ModelSchema.Proofs.Reading.Rows
import ModelSchema.Sdl.Reading

namespace ModelSchema

open Graphql (Closed Open Token InputValue FieldDefinition TypeExpr Spells Lexes Written
  isName leavesComment)
open Graphql.Parser (Takes current endsItem upon)

-- ================================================================ entries

/-- The text of a value, if the value is given. -/
def Value.given? (v : Value) : Option String := if v.isGiven then some v.text else none

namespace Sdl

/-- A text of a type reference. Where more follows on its line, no comment is
open at its end. -/
structure WritesType (followed : Bool) (text : String) (t : TypeExpr) : Prop where
  parse : Graphql.parseType text = .ok t
  narrow : Text.Narrow text.toList
  comment : followed = true → leavesComment text = false

/-- A text of arguments in parentheses, or none at all. -/
structure WritesArguments (text : String) (args : List InputValue) : Prop where
  parse : Graphql.parseArguments text = .ok args
  opening : ∀ c ∈ text.toList.head?, c = '('
  narrow : Text.Narrow text.toList
  comment : leavesComment text = false

/-- An entry of a map of arguments. -/
inductive WritesArgument : String × Value → InputValue → Prop
  | intro {name type : String} {t : TypeExpr} (hname : isName name = true)
      (htype : WritesType true type t) : WritesArgument (name, .str type) ⟨none, name, t, none, []⟩

/-- An entry of a field map, and the field that it stands for. Its type is
followed by its deprecation, if there is a reason for one. -/
inductive WritesField (operation : Bool) (reason? : String → Option String) :
    String × Value → FieldDefinition → Prop
  | plain {name list type : String} {args : List InputValue} {t : TypeExpr}
      (hname : isName name = true) (hlist : WritesArguments list args)
      (htype : WritesType (reason? name).isSome type t) :
      WritesField operation reason? (name ++ list, .str type) ⟨none, name, args, t, []⟩
  | descriptor {name type : String} {settings entries : List (String × Value)}
      {args : List InputValue} {t : TypeExpr} (hoperation : operation = true)
      (hname : isName name = true)
      (hentries : (Value.getD settings "args").settingsIfGiven = .ok entries)
      (hargs : List.Forall₂ WritesArgument entries args)
      (hsetting : Assoc.get? settings "type" = some (.str type))
      (htype : WritesType (reason? name).isSome type t) :
      WritesField operation reason? (name, .map settings) ⟨none, name, args, t, []⟩

/-- The description of a field: by its configuration, which is a text or has
one, else by the attribute of its name. -/
def description? (configs : Configurations) (m : Option Model) (name : String) : Option String :=
  let own := match Value.getD configs name with
    | .str text => (Value.str text).given?
    | .map settings => (Value.getD settings "description").given?
    | _ => none
  own.or ((m.bind fun m => m.attribute? name).bind fun a => a.description.given?)

/-- The reason of the deprecation of a field: by its configuration, else by the
attribute of its name. -/
def reason? (configs : Configurations) (m : Option Model) (name : String) : Option String :=
  let own := match Value.getD configs name with
    | .map settings => (Value.getD settings "deprecated").given?
    | _ => none
  own.or ((m.bind fun m => m.attribute? name).bind fun a => a.deprecated.given?)

/-- A field with what is said of it. -/
def documented (configs : Configurations) (m : Option Model) (f : FieldDefinition) :
    FieldDefinition :=
  { f with
    description := (description? configs m f.name).map fun text =>
      Graphql.BlockString.normalised (Text.lines text)
    directives := ((reason? configs m f.name).map Graphql.Parser.deprecatedDirective).toList }

/-- Whether a block holds operations, of which no model says anything. -/
def isOperation (block : String) : Bool := operationBlocks.contains (.str block)

/-- The model that is asked about the fields of a block. -/
def asked (block : String) (m : Option Model) : Option Model :=
  if isOperation block then none else m

-- =============================================================== metadata

theorem given?_orElse (a b : Value) : (a.orElse b).given? = a.given?.or b.given? := by
  unfold Value.orElse Value.given?
  by_cases ha : a.isGiven = true
  · rw [if_pos ha, if_pos ha]
    rfl
  · rw [if_neg ha, if_neg ha]
    rfl

/-- The metadata of a key in a block. -/
def metadataIn (block : String) (configs : Configurations) (m : Option Model) (key : String) :
    Metadata :=
  if isOperation block then configuredMetadata configs key else fieldMetadata configs m key

section

variable (block : String) (configs : Configurations) (m : Option Model) (key : String)

theorem given?_configuredMetadata :
    (configuredMetadata configs key).description.given? = description? configs none (baseName key)
    ∧ (configuredMetadata configs key).deprecated.given? = reason? configs none (baseName key) := by
  unfold configuredMetadata description? reason?
  cases Value.getD configs (baseName key) with
  | str text => exact ⟨(Option.or_none).symm, rfl⟩
  | map settings => exact ⟨(Option.or_none).symm, (Option.or_none).symm⟩
  | _ => exact ⟨rfl, rfl⟩

theorem given?_fieldMetadata :
    (fieldMetadata configs m key).description.given? = description? configs m (baseName key)
    ∧ (fieldMetadata configs m key).deprecated.given? = reason? configs m (baseName key) := by
  obtain ⟨hdescription, hreason⟩ := given?_configuredMetadata configs key
  unfold fieldMetadata Metadata.orElse
  dsimp only
  rw [given?_orElse, given?_orElse, hdescription, hreason]
  unfold description? reason?
  dsimp only [Option.bind_none]
  rw [Option.or_none, Option.or_none]
  cases m.bind fun m => m.attribute? (baseName key) with
  | none => exact ⟨rfl, rfl⟩
  | some a => exact ⟨rfl, rfl⟩

/-- What is said of a field is what its metadata holds. -/
theorem given?_metadataIn :
    (metadataIn block configs m key).description.given?
        = description? configs (asked block m) (baseName key)
    ∧ (metadataIn block configs m key).deprecated.given?
        = reason? configs (asked block m) (baseName key) := by
  unfold metadataIn asked
  by_cases hblock : isOperation block = true
  · rw [if_pos hblock, if_pos hblock]
    exact given?_configuredMetadata configs key
  · rw [if_neg hblock, if_neg hblock]
    exact given?_fieldMetadata configs m key

end

namespace Metadata

variable (m : Metadata)

theorem said_eq : m.said = m.description.given?.map fun text =>
    Graphql.BlockString.normalised (Text.lines text) := by
  unfold said Value.given?
  split
  · rw [fieldDenoted_eq]
    rfl
  · rfl

theorem directives_eq :
    m.directives = (m.deprecated.given?.map Graphql.Parser.deprecatedDirective).toList := by
  unfold directives Value.given?
  split
  · rfl
  · rfl

end Metadata

-- ======================================================= types, arguments

theorem WritesType.exists_takes {followed : Bool} {text : String} {t : TypeExpr}
    (h : WritesType followed text t) :
    ∃ ts, Spells (leavesComment text) text.toList ts
      ∧ Takes (· ≠ .punct .bang) (fun _ => Graphql.Parser.typeExpr) ts t := by
  obtain ⟨ts, hlex, htakes⟩ :=
    Graphql.Parser.exists_takes_of_run (fun _ => Graphql.Parser.follows_typeExpr) h.parse
  exact ⟨ts, Graphql.spells_of_lex hlex, htakes⟩

/-- Where more follows, a type is a piece of a text. -/
theorem WritesType.exists_open {text : String} {t : TypeExpr} (h : WritesType true text t) :
    ∃ ts, Open text.toList ts
      ∧ Takes (· ≠ .punct .bang) (fun _ => Graphql.Parser.typeExpr) ts t := by
  obtain ⟨ts, hspells, htakes⟩ := h.exists_takes
  rw [h.comment rfl] at hspells
  exact ⟨ts, hspells.open, htakes⟩

/-- A text that lists arguments in these tokens. -/
structure Lists (text : String) (ts : List Token) (args : List InputValue) : Prop where
  piece : Open text.toList ts
  opening : ∀ c ∈ text.toList.head?, c = '('
  narrow : Text.Narrow text.toList
  takes : Takes (· ≠ .punct .parenL) Graphql.Parser.argumentDefinitions ts args

theorem WritesArguments.exists_lists {text : String} {args : List InputValue}
    (h : WritesArguments text args) : ∃ ts, Lists text ts args := by
  obtain ⟨ts, hlex, htakes⟩ :=
    Graphql.Parser.exists_takes_of_run Graphql.Parser.follows_argumentDefinitions h.parse
  have hspells := Graphql.spells_of_lex hlex
  rw [h.comment] at hspells
  exact ⟨ts, hspells.open, h.opening, h.narrow,
    fun fuel hfuel rest hrest => htakes fuel hfuel rest fun _ => hrest⟩

/-- A text that is one of the arguments of a list. -/
structure IsArgument (w : Written InputValue) : Prop where
  piece : Open w.text w.tokens
  narrow : Text.Narrow w.text
  item : w.IsItem Graphql.Parser.inputValue

theorem WritesArgument.exists_written {e : String × Value} {v : InputValue}
    (h : WritesArgument e v) :
    ∃ w, IsArgument w ∧ w.text = (e.1 ++ ": " ++ e.2.text).toList ∧ w.value = v := by
  obtain @⟨name, type, t, hname, htype⟩ := h
  obtain ⟨ts, hopen, htakes⟩ := htype.exists_open
  have hcolon : Closed ": ".toList [.punct .colon] := Closed.marks rfl
  have hpiece := (Open.name hname).append (hcolon.append_open hopen) (Graphql.stops_cons rfl _)
    (List.cons_ne_nil _ _)
  refine ⟨⟨name.toList ++ (": ".toList ++ type.toList), .name name :: .punct .colon :: ts, _⟩,
    ⟨hpiece, ?_, ⟨_, _, rfl, rfl⟩, fun fuel hfuel rest hrest => ?_⟩, ?_, rfl⟩
  · exact (Text.OneLine.name hname).narrow.append
      ((Text.OneLine.of_all (by decide)).narrow.append htype.narrow)
  · have hbang : current rest ≠ .punct .bang :=
      Graphql.Parser.ne_punct_of_endsItem hrest (by decide)
    have hlength : ts.length < fuel := by
      simp only [List.length_cons] at hfuel
      omega
    exact Declaration.inputValue_eq_plain name (Nat.zero_lt_of_lt hfuel) hrest
      (htakes fuel hlength rest hbang)
  · rw [String.toList_append, String.toList_append, List.append_assoc]
    rfl

theorem exists_arguments {entries : List (String × Value)} {args : List InputValue}
    (h : List.Forall₂ WritesArgument entries args) :
    ∃ ws : List (Written InputValue), (∀ w ∈ ws, IsArgument w)
      ∧ ws.map Written.text = entries.map (fun e => (e.1 ++ ": " ++ e.2.text).toList)
      ∧ ws.map Written.value = args := by
  induction h with
  | nil => exact ⟨[], fun w hw => (by cases hw), rfl, rfl⟩
  | cons hhead _ ih =>
      obtain ⟨w, hw, htext, hvalue⟩ := hhead.exists_written
      obtain ⟨ws, hws, htexts, hvalues⟩ := ih
      refine ⟨w :: ws, List.forall_mem_cons.2 ⟨hw, hws⟩, ?_, ?_⟩
      · rw [List.map_cons, List.map_cons, htext, htexts]
      · rw [List.map_cons, hvalue, hvalues]

/-- Arguments in parentheses, with commas between them, are a list of them. -/
theorem lists_of_arguments {text : String} {ws : List (Written InputValue)} (hsome : ws ≠ [])
    (h : ∀ w ∈ ws, IsArgument w)
    (htext : text.toList = '(' :: (", ".toList.intercalate (ws.map Written.text) ++ [')'])) :
    Lists text (.punct .parenL :: (ws.flatMap Written.tokens ++ [.punct .parenR]))
      (ws.map Written.value) := by
  have hcomma : Closed ", ".toList [] := Closed.marks rfl
  have hopening : Closed ['('] [.punct .parenL] := Closed.marks rfl
  have hclosing : Closed [')'] [.punct .parenR] := Closed.marks rfl
  have hargs := Open.intercalate hcomma (Graphql.stops_cons rfl _) (by decide) Written.text
    Written.tokens fun w hw => (h w hw).piece
  rw [Declaration.intercalate_empty] at hargs
  refine ⟨?_, ?_, ?_, fun fuel hfuel rest _ => ?_⟩
  · rw [htext]
    exact (hopening.append (hargs.append_closed hclosing (Graphql.stops_cons rfl _)
      (by decide))).open
  · rw [htext]
    exact fun c hc => (Option.some.inj hc).symm
  · rw [htext]
    have hparts : ∀ part ∈ ws.map Written.text, Text.Narrow part := by
      intro part hpart
      obtain ⟨w, hw, rfl⟩ := List.mem_map.1 hpart
      exact (h w hw).narrow
    have hmarks {cs : List Char} (hcs : cs.all fun c => !Text.isLineEnd c) : Text.Narrow cs :=
      (Text.OneLine.of_all hcs).narrow
    have hopening : Text.Narrow ['('] := hmarks (by decide)
    exact hopening.append (Text.Narrow.append
      (Text.forall_mem_intercalate (hmarks (by decide)) hparts) (hmarks (by decide)))
  · exact Written.takes_optionalMany (.inr rfl) hsome (fun w hw => (h w hw).item) fuel hfuel rest
      trivial

/-- The arguments of a map are listed. -/
theorem exists_lists_renderArguments {entries : List (String × Value)} {args : List InputValue}
    (h : List.Forall₂ WritesArgument entries args) :
    ∃ ts, Lists (renderArguments (entries.map fun e => (e.1, e.2.text))) ts args := by
  obtain ⟨ws, hws, htexts, rfl⟩ := exists_arguments h
  by_cases hnone : ws = []
  · subst hnone
    have hentries : entries = [] := List.map_eq_nil_iff.1 htexts.symm
    subst hentries
    refine ⟨[], Closed.nil.open, fun c hc => (by cases hc), fun c hc => (by cases hc),
      fun fuel _ rest hrest => Graphql.Parser.optionalMany_eq_nil hrest⟩
  · refine ⟨_, lists_of_arguments hnone hws ?_⟩
    have hentries : entries ≠ [] := fun h => hnone (by
      rw [h] at htexts
      exact List.map_eq_nil_iff.1 htexts)
    rw [htexts]
    unfold renderArguments
    simp [String.toList_intercalate, Function.comp_def, hentries]

-- ================================================================= lines

/-- What follows the key of a field, in a block. -/
def shapeIn (block : String) (v : Value) : Except Fault FieldShape :=
  if isOperation block then readOperation v else .ok { type := v.text }

/-- A line of a field without its metadata, and the field that it stands for. -/
structure IsLine (reason? : String → Option String) (line : String × FieldShape)
    (f : FieldDefinition) (list : String) (ts : List Token) : Prop where
  text : fieldLine line.1 line.2 = f.name ++ list ++ ": " ++ line.2.type
  name : isName f.name = true
  base : baseName line.1 = f.name
  list : Lists list ts f.arguments
  type : WritesType (reason? f.name).isSome line.2.type f.type

theorem WritesField.exists_line {block : String} {reason? : String → Option String}
    {e : String × Value} {f : FieldDefinition}
    (h : WritesField (isOperation block) reason? e f) :
    ∃ shape list ts, shapeIn block e.2 = .ok shape ∧ IsLine reason? (e.1, shape) f list ts := by
  unfold shapeIn
  cases h with
  | @plain name list type args t hname hlist htype =>
      obtain ⟨ts, hts⟩ := hlist.exists_lists
      have hbase := baseName_append (NamePart.of_isName hname) hlist.opening
      refine ⟨{ type := type }, list, ts, ?_, ?_, hname, hbase, hts, htype⟩
      · split
        · rfl
        · rfl
      · unfold fieldLine renderArguments
        rw [if_pos (by rfl), String.append_empty]
  | @descriptor name type settings entries args t hoperation hname hentries hargs hsetting htype =>
      obtain ⟨ts, hts⟩ := exists_lists_renderArguments hargs
      have hbase := baseName_of_namePart (NamePart.of_isName hname)
      refine ⟨{ args := entries.map fun e => (e.1, e.2.text), type := type }, _, ts, ?_, rfl,
        hname, hbase, hts, htype⟩
      rw [if_pos hoperation]
      unfold readOperation readArguments
      dsimp only
      rw [hentries, hsetting]
      rfl

namespace IsLine

variable {reason? : String → Option String} {line : String × FieldShape} {f : FieldDefinition}
  {list : String} {ts : List Token} {m : Metadata}

/-- The type of a line, and its deprecation. No comment covers one that is
there. -/
theorem exists_type (h : IsLine reason? line f list ts)
    (hreason : m.deprecated.given? = reason? f.name) :
    ∃ tts, Lexes (line.2.type.toList ++ m.deprecationText) (tts ++ m.deprecationTokens)
      ∧ Takes (· ≠ .punct .bang) (fun _ => Graphql.Parser.typeExpr) tts f.type := by
  obtain ⟨tts, hspells, htakes⟩ := h.type.exists_takes
  refine ⟨tts, ?_, htakes⟩
  by_cases hgiven : m.deprecated.isGiven = true
  · have hsome : (reason? f.name).isSome = true := by
      rw [← hreason, Value.given?, if_pos hgiven]
      rfl
    rw [h.type.comment hsome] at hspells
    exact (m.open_append hspells.open).lexes
  · unfold Metadata.deprecationText Metadata.deprecationTokens
    rw [if_neg hgiven, if_neg hgiven, List.append_nil, List.append_nil]
    exact hspells.lexes

/-- A line with its metadata is a row, and is read as its field with what is
said of it. -/
theorem exists_written (h : IsLine reason? line f list ts)
    (hreason : m.deprecated.given? = reason? f.name) :
    ∃ w, IsField w ∧ w.text = (applyMetadata (fieldLine line.1 line.2) m).toList
      ∧ w.value = { f with description := m.said, directives := m.directives } := by
  obtain ⟨tts, htype, htakes⟩ := h.exists_type hreason
  have hline := lexes_line h.name h.list.piece h.list.opening htype
  have hnarrow : Text.Narrow (f.name.toList ++ (list.toList ++ (": ".toList
      ++ (line.2.type.toList ++ m.deprecationText)))) :=
    (Text.OneLine.name h.name).narrow.append (h.list.narrow.append
      ((Text.OneLine.of_all (by decide)).narrow.append
        (h.type.narrow.append m.oneLine_deprecation.narrow)))
  have hsome : f.name.toList ++ (list.toList ++ (": ".toList
      ++ (line.2.type.toList ++ m.deprecationText))) ≠ [] := by simp
  have hrow := Row.of_spells hline.spells hnarrow hsome
  have htext : (fieldLine line.1 line.2).toList ++ m.deprecationText = f.name.toList ++ (list.toList
      ++ (": ".toList ++ (line.2.type.toList ++ m.deprecationText))) := by
    rw [h.text]
    simp only [String.toList_append, List.append_assoc]
  rw [← htext] at hrow
  refine ⟨⟨_, _, { f with description := m.said, directives := m.directives }⟩,
    ⟨hrow.applyMetadata, ?_, fun fuel hfuel rest hrest => ?_⟩, rfl, rfl⟩
  · unfold Metadata.descriptionTokens
    split
    · exact ⟨_, _, rfl, rfl⟩
    · exact ⟨_, _, rfl, rfl⟩
  · simp only [List.length_append, List.length_cons] at hfuel
    exact m.fieldDefinition_eq f.name (by omega) hrest
      (fun _ hnext => h.list.takes fuel (by omega) _ hnext)
      fun _ hnext => htakes fuel (by omega) _ hnext

end IsLine

-- ============================================================== field maps

section

variable {block : String} {entries : List (String × Value)} {lines : List (String × FieldShape)}
  {fields : List FieldDefinition} {configs : Value} {settings : Configurations} {m : Option Model}

/-- A field map is its lines, each with its metadata. -/
theorem renderConfigured_eq (hsome : entries ≠ [])
    (hconfigs : configs.settingsIfGiven = .ok settings)
    (h : List.Forall₂ (fun e line => Prod.mk e.1 <$> shapeIn block e.2 = .ok line) entries lines) :
    renderConfigured (.map entries) configs m (.str block)
      = .ok (String.intercalate "\n" (lines.map fun line =>
          applyMetadata (fieldLine line.1 line.2) (metadataIn block settings m line.1))) := by
  have hkey : discard (Value.str block).key = .ok () := rfl
  have hentries : (Value.map entries).settings = .ok entries := rfl
  have hempty : entries.isEmpty = false := List.isEmpty_eq_false_iff.2 hsome
  have hlines := mapM_eq_ok.2 h
  unfold renderConfigured
  rw [hkey, hentries]
  show (do
    let configs ← if entries.isEmpty then pure [] else configs.settingsIfGiven
    _) = _
  rw [hempty, hconfigs]
  show (if isOperation block then _ else _) = _
  unfold shapeIn at hlines
  unfold metadataIn
  by_cases hblock : isOperation block = true
  · simp only [if_pos hblock, map_eq_pure_bind] at hlines ⊢
    show (entries.mapM (fun e => readOperation e.2 >>= fun shape => pure (e.1, shape)) >>= _) = _
    rw [hlines]
    rfl
  · simp only [if_neg hblock] at hlines ⊢
    have hpure : entries.mapM (fun e => (pure (e.1, { type := e.2.text }) : Except Fault _))
      = .ok lines := hlines
    rw [List.mapM_pure] at hpure
    cases hpure
    rfl

/-- The lines of a field map, as rows of the fields that they are read as. -/
theorem exists_rows
    (h : List.Forall₂ (WritesField (isOperation block) (reason? settings (asked block m)))
      entries fields) :
    ∃ (lines : List (String × FieldShape)) (ws : List (Written FieldDefinition)),
      List.Forall₂ (fun e line => Prod.mk e.1 <$> shapeIn block e.2 = .ok line) entries lines
      ∧ (∀ w ∈ ws, IsField w)
      ∧ ws.map Written.text = lines.map (fun line =>
          (applyMetadata (fieldLine line.1 line.2) (metadataIn block settings m line.1)).toList)
      ∧ ws.map Written.value = fields.map (documented settings (asked block m)) := by
  induction h with
  | nil => exact ⟨[], [], .nil, fun w hw => (by cases hw), rfl, rfl⟩
  | @cons e f _ _ hhead _ ih =>
      obtain ⟨lines, ws, hlines, hws, htexts, hvalues⟩ := ih
      obtain ⟨shape, list, ts, hshape, hline⟩ := hhead.exists_line
      obtain ⟨hdescription, hreason⟩ := given?_metadataIn block settings m e.1
      rw [hline.base] at hdescription hreason
      obtain ⟨w, hw, htext, hvalue⟩ := hline.exists_written hreason
      refine ⟨(e.1, shape) :: lines, w :: ws, .cons ?_ hlines, List.forall_mem_cons.2 ⟨hw, hws⟩,
        ?_, ?_⟩
      · rw [hshape]
        rfl
      · rw [List.map_cons, List.map_cons, htext, htexts]
      · rw [List.map_cons, List.map_cons, hvalue, hvalues, Metadata.said_eq, Metadata.directives_eq,
          hdescription, hreason]
        rfl

/-- A field map is read back as one field for each entry, in order, with its
name, its arguments, its type and what is said of it. -/
theorem parse_renderConfigured {name : String} (hname : isName name = true) (hsome : entries ≠ [])
    (hconfigs : configs.settingsIfGiven = .ok settings)
    (h : List.Forall₂ (WritesField (isOperation block) (reason? settings (asked block m)))
      entries fields) :
    ∃ body, renderConfigured (.map entries) configs m (.str block) = .ok body
      ∧ Graphql.parse (renderBlock "type" name body "")
        = .ok [.type ⟨none, name, [],
            .object [] (fields.map (documented settings (asked block m)))⟩] := by
  obtain ⟨lines, ws, hlines, hws, htexts, hvalues⟩ := exists_rows h
  refine ⟨_, renderConfigured_eq hsome hconfigs hlines, ?_⟩
  have hrows : ws ≠ [] := by
    rintro rfl
    cases h with
    | nil => exact hsome rfl
    | cons => cases hvalues
  rw [← hvalues]
  refine parse_renderBlock hname hrows hws ?_
  rw [String.toList_intercalate, htexts, List.map_map]
  rfl

end

/-- Two operations, the one with its arguments in its key and the other with
them in a map. -/
def bookFields : List (String × Value) :=
  [("book" ++ "(id: ID = 1, tags: [String!])", .str "Book!"),
    ("books", .map [("args", .map [("limit", .str "Int")]), ("type", .str "[Book]")])]

/-- What is said of them. -/
def bookConfigs : Configurations :=
  [("book", .map [("description", .str "One."), ("deprecated", .str "Use books.")]),
    ("books", .str "All.")]

theorem parse_renderConfigured_query :
    ∃ body, renderConfigured (.map bookFields) (.map bookConfigs) none (.str "query") = .ok body
      ∧ Graphql.parse (renderBlock "type" "Query" body "")
        = .ok [.type ⟨none, "Query", [], .object [] [
            ⟨some "One.", "book", [⟨none, "id", .named "ID", some (.int "1"), []⟩,
              ⟨none, "tags", .list (.nonNull (.named "String")), none, []⟩],
              .nonNull (.named "Book"), [Graphql.Parser.deprecatedDirective "Use books."]⟩,
            ⟨some "All.", "books", [⟨none, "limit", .named "Int", none, []⟩],
              .list (.named "Book"), []⟩]⟩] := by
  have line {text : String} (h : text.toList.all fun c => !Text.isLineEnd c) :
      Text.Narrow text.toList := (Text.OneLine.of_all h).narrow
  have hlist : WritesArguments "(id: ID = 1, tags: [String!])"
      [⟨none, "id", .named "ID", some (.int "1"), []⟩,
        ⟨none, "tags", .list (.nonNull (.named "String")), none, []⟩] :=
    ⟨by cbv, fun c hc => (Option.some.inj hc).symm, line (by decide), by cbv⟩
  have hlimit : WritesArgument ("limit", .str "Int") ⟨none, "limit", .named "Int", none, []⟩ :=
    ⟨by cbv, by cbv, line (by decide), fun _ => by cbv⟩
  have hone {followed : Bool} : WritesType followed "Book!" (.nonNull (.named "Book")) :=
    ⟨by cbv, line (by decide), fun _ => by cbv⟩
  have hall {followed : Bool} : WritesType followed "[Book]" (.list (.named "Book")) :=
    ⟨by cbv, line (by decide), fun _ => by cbv⟩
  have hname : isName "book" = true := rfl
  have hfields : List.Forall₂
      (WritesField (isOperation "query") (reason? bookConfigs (asked "query" none))) bookFields _ :=
    .cons (.plain hname hlist hone)
      (.cons (.descriptor rfl rfl rfl (.cons hlimit .nil) rfl hall) .nil)
  exact parse_renderConfigured rfl (List.cons_ne_nil _ _) rfl hfields

/-- A string of an argument comes apart at a line separator, which is none to
the document it stands in. -/
theorem parse_renderConfigured_separator :
    Graphql.parseArguments "(x: String = \"p\u2028q\")"
        = .ok [⟨none, "x", .named "String", some (.string "p\u2028q"), []⟩]
    ∧ leavesComment "(x: String = \"p\u2028q\")" = false
    ∧ ∃ body, renderConfigured (.map [("a(x: String = \"p\u2028q\")", .str "String")]) .null none
        (.str "fields") = .ok body
      ∧ Graphql.parse (renderBlock "type" "T" body "") = .error .unterminatedString :=
  ⟨by cbv, by cbv, "a(x: String = \"p\u2028q\"): String", by cbv, by cbv⟩

end Sdl

end ModelSchema
