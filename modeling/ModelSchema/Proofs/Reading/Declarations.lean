/-
Declarations and the tokens that they are written in. A declaration whose
names may stand in a document is read as its tokens, one declaration after
another (`lexes_texts`), whatever is said of its fields.
-/
import ModelSchema.Compiler.Enums
import ModelSchema.Graphql.Parser
import ModelSchema.Proofs.Outline.Declaration
import ModelSchema.Proofs.Reading.Layout

namespace ModelSchema

open Graphql (Token Closed Open Stops TypeExpr isName isNamePart)

-- =========================================================== single lines

namespace Text

theorem OneLine.append {cs cs' : List Char} (h : OneLine cs) (h' : OneLine cs') :
    OneLine (cs ++ cs') := by
  intro c hc
  rcases List.mem_append.1 hc with hc | hc
  · exact h c hc
  · exact h' c hc

theorem OneLine.flatMap {α : Type} {f : α → List Char} {as : List α}
    (h : ∀ a ∈ as, OneLine (f a)) : OneLine (as.flatMap f) := by
  intro c hc
  obtain ⟨a, ha, hc⟩ := List.mem_flatMap.1 hc
  exact h a ha c hc

/-- What holds of the characters of parts, and of those between them, holds of
all characters. -/
theorem forall_mem_intercalate {P : Char → Prop} {sep : List Char} (hsep : ∀ c ∈ sep, P c)
    {parts : List (List Char)} (h : ∀ part ∈ parts, ∀ c ∈ part, P c) :
    ∀ c ∈ sep.intercalate parts, P c := by
  induction parts with
  | nil => exact fun c hc => (by cases hc)
  | cons part parts ih =>
      have hpart := h part List.mem_cons_self
      have hrest := ih fun p hp => h p (List.mem_cons_of_mem part hp)
      cases parts with
      | nil => simpa using hpart
      | cons next parts =>
          rw [List.intercalate_cons_cons]
          exact List.forall_mem_append.2 ⟨List.forall_mem_append.2 ⟨hpart, hsep⟩, hrest⟩

/-- A text whose characters are checked one by one. -/
theorem OneLine.of_all {cs : List Char} (h : cs.all fun c => !isLineEnd c) : OneLine cs := by
  intro c hc
  simpa using List.all_eq_true.1 h c hc

theorem OneLine.name {s : String} (h : isName s = true) : OneLine s.toList := by
  obtain ⟨c, rest, hs, hstart, hparts⟩ := Graphql.isName_iff.1 h
  have part : ∀ d : Char, isNamePart d = true → isLineEnd d = false := fun d hd =>
    Graphql.forall_isNamePart (P := fun d => isNamePart d = true → isLineEnd d = false)
      (by decide) hd hd
  rw [hs]
  intro d hd
  rcases List.mem_cons.1 hd with rfl | hd
  · exact part _ (Graphql.isNamePart_of_isNameStart hstart)
  · exact part d (hparts d hd)

theorem oneLine_units (c : Char) : OneLine ((units16 c).flatMap Graphql.fixedEscape) := by
  have digit : ∀ n, isLineEnd (hexDigit n) = false := by
    have digits : ∀ d : Fin 16, isLineEnd (Nat.digitChar d.val) = false := by decide
    exact fun n => digits ⟨n % 16, Nat.mod_lt n (by omega)⟩
  refine OneLine.flatMap fun u _ => ?_
  unfold Graphql.fixedEscape
  rw [Graphql.hexDigits_four]
  refine OneLine.of_all ?_
  simp [digit]
  decide

theorem oneLine_escapeChar (c : Char) : OneLine (escapeChar c) := by
  unfold escapeChar
  repeat' split
  all_goals first
    | exact OneLine.of_all (by decide)
    | exact oneLine_units c
    | skip
  next hprintable =>
    intro d hd
    rw [List.mem_singleton.1 hd, isLineEnd]
    simp
    omega

/-- A quoted text stays on its line. -/
theorem oneLine_quoted (s : String) : OneLine (quoted s).toList := by
  unfold quoted
  rw [String.toList_ofList]
  have hquote : OneLine ['"'] := OneLine.of_all (by decide)
  exact (hquote.append (OneLine.flatMap fun c _ => oneLine_escapeChar c)).append hquote

end Text

-- ============================================================== tokens

namespace Graphql

/-- The tokens of a type reference. -/
def TypeExpr.tokens : TypeExpr → List Token
  | .named name => [.name name]
  | .list item => .punct .bracketL :: (item.tokens ++ [.punct .bracketR])
  | .nonNull inner => inner.tokens ++ [.punct .bang]

/-- A type reference that may stand in a document: of a name, and with no
mark after another. -/
def TypeExpr.Plain : TypeExpr → Prop
  | .named name => isName name = true
  | .list item => item.Plain
  | .nonNull inner => inner.isNonNull = false ∧ inner.Plain

/-- The levels of lists in a type reference. -/
def TypeExpr.depth : TypeExpr → Nat
  | .named _ => 0
  | .list item => item.depth + 1
  | .nonNull inner => inner.depth

/-- A type reference that may stand in a document, and is not nested too
deep to be read. -/
structure TypeExpr.Readable (t : TypeExpr) : Prop where
  plain : t.Plain
  depth : t.depth ≤ Parser.maxNesting

end Graphql

/-- A type reference as it stands in a document. -/
def TypeRef.expr : TypeRef → TypeExpr
  | .named name => .named name.text
  | .list item => .list item.expr
  | .nonNull inner => .nonNull inner.expr

/-- The tokens of what is said of a field before it. -/
def Sdl.Metadata.descriptionTokens (m : Sdl.Metadata) : List Token :=
  if m.description.isGiven then [.blockString (Sdl.fieldDenoted m.description.text)] else []

/-- The tokens of what is said of a field after it. -/
def Sdl.Metadata.deprecationTokens (m : Sdl.Metadata) : List Token :=
  if m.deprecated.isGiven then
    [.punct .at, .name "deprecated", .punct .parenL, .name "reason", .punct .colon,
      .string m.deprecated.text, .punct .parenR]
  else []

namespace Declaration

/-- The tokens of an argument. -/
def argumentTokens (e : String × TypeRef) : List Token :=
  .name e.1 :: .punct .colon :: e.2.expr.tokens

/-- The tokens of the arguments of a field, if it takes any. -/
def Field.argumentTokens (f : Field) : List Token :=
  if f.args.isEmpty then []
  else .punct .parenL :: (f.args.flatMap Declaration.argumentTokens ++ [.punct .parenR])

/-- The tokens of a field. -/
def Field.tokens (f : Field) : List Token :=
  f.metadata.descriptionTokens ++ (.name f.key :: (f.argumentTokens ++ (.punct .colon ::
    (f.type.expr.tokens ++ f.metadata.deprecationTokens))))

/-- The tokens of a declaration. -/
def tokens (d : Declaration) : List Token :=
  match d.body with
  | .scalar => [.name "scalar", .name d.name.text]
  | .union members =>
      .name "union" :: .name d.name.text :: .punct .equals
        :: [Token.punct .pipe].intercalate (members.map fun m => [.name m])
  | .enum values =>
      .name "enum" :: .name d.name.text :: .punct .braceL
        :: (values.map (fun v => .name (Enums.withoutLineFeed v)) ++ [.punct .braceR])
  | .object description fields =>
      (Graphql.lex description).tokens ++ (.name "type" :: .name d.name.text :: .punct .braceL
        :: (fields.flatMap Field.tokens ++ [.punct .braceR]))
  | .input fields =>
      .name "input" :: .name d.name.text :: .punct .braceL
        :: (fields.flatMap Field.tokens ++ [.punct .braceR])

-- ========================================================= well-named

/-- A field whose names may stand in a document. -/
structure Field.WellNamed (f : Field) : Prop where
  key : isName f.key = true
  args : ∀ e ∈ f.args, isName e.1 = true ∧ e.2.expr.Readable
  type : f.type.expr.Readable

/-- A description of a type as it is written. -/
def Described (description : String) : Prop :=
  description = "" ∨ ∃ text, description = Sdl.descriptionBlock text

/-- A declaration whose names may stand in a document, and whose body is not
empty. -/
structure WellNamed (d : Declaration) : Prop where
  name : isName d.name.text = true
  body : match d.body with
    | .scalar => True
    | .union members => members ≠ [] ∧ ∀ m ∈ members, isName m = true
    | .enum values => values ≠ [] ∧ ∀ v ∈ values, isName (Enums.withoutLineFeed v) = true
    | .object description fields =>
        Described description ∧ fields ≠ [] ∧ ∀ f ∈ fields, f.WellNamed
    | .input fields => fields ≠ [] ∧ ∀ f ∈ fields, f.WellNamed ∧ f.args = []

-- ==================================================== reading references

theorem open_expr {t : TypeRef} (h : t.expr.Plain) : Open t.text.toList t.expr.tokens := by
  induction t with
  | named name => exact Open.name h
  | list item ih =>
      have hopening : Closed "[".toList [.punct .bracketL] := Closed.marks rfl
      have hclosing : Closed "]".toList [.punct .bracketR] := Closed.marks rfl
      have hitem := (ih h).append_closed hclosing (Graphql.stops_cons rfl []) (by decide)
      show Open ("[" ++ item.text ++ "]").toList _
      rw [String.toList_append, String.toList_append, List.append_assoc]
      exact (hopening.append hitem).open
  | nonNull inner ih =>
      have hbang : Closed "!".toList [.punct .bang] := Closed.marks rfl
      have hinner := (ih h.2).append_closed hbang (Graphql.stops_cons rfl []) (by decide)
      show Open (inner.text ++ "!").toList _
      rw [String.toList_append]
      exact hinner.open

theorem oneLine_text {t : TypeRef} (h : t.expr.Plain) : Text.OneLine t.text.toList := by
  induction t with
  | named name => exact Text.OneLine.name h
  | list item ih =>
      show Text.OneLine ("[" ++ item.text ++ "]").toList
      rw [String.toList_append, String.toList_append]
      exact ((Text.OneLine.of_all (by decide)).append (ih h)).append (Text.OneLine.of_all (by decide))
  | nonNull inner ih =>
      show Text.OneLine (inner.text ++ "!").toList
      rw [String.toList_append]
      exact (ih h.2).append (Text.OneLine.of_all (by decide))

end Declaration

-- ======================================================= reading metadata

namespace Sdl

namespace Metadata

variable (m : Metadata)

/-- A deprecation as it is written. -/
def deprecationText : List Char :=
  if m.deprecated.isGiven then
    " @deprecated(reason: ".toList ++ ((Text.quoted m.deprecated.text).toList ++ [')'])
  else []

theorem closed_deprecation : Closed m.deprecationText m.deprecationTokens := by
  unfold deprecationText deprecationTokens
  split
  · have hat : Closed " @".toList [.punct .at] := Closed.marks rfl
    have hopening : Closed "(".toList [.punct .parenL] := Closed.marks rfl
    have hcolon : Closed ": ".toList [.punct .colon] := Closed.marks rfl
    have hclosing : Closed [')'] [.punct .parenR] := Closed.marks rfl
    have hreason := Closed.quoted m.deprecated.text (by decide) hclosing
    have hargument := (Open.name (s := "reason") rfl).append_closed (hcolon.append hreason)
      (Graphql.stops_cons rfl _) (List.cons_ne_nil _ _)
    have hdirective := (Open.name (s := "deprecated") rfl).append_closed
      (hopening.append hargument) (Graphql.stops_cons rfl _) (List.cons_ne_nil _ _)
    exact hat.append hdirective
  · exact Closed.nil

theorem oneLine_deprecation : Text.OneLine m.deprecationText := by
  unfold deprecationText
  split
  · exact (Text.OneLine.of_all (by decide)).append
      ((Text.oneLine_quoted _).append (Text.OneLine.of_all (by decide)))
  · exact fun c hc => (by cases hc)

theorem stops_deprecation : Stops m.deprecationText := by
  unfold deprecationText
  split
  · exact Graphql.stops_cons rfl _
  · exact Graphql.stops_nil

/-- A deprecation stands after a piece that may be open. -/
theorem open_append {cs : List Char} {ts : List Token} (h : Open cs ts) :
    Open (cs ++ m.deprecationText) (ts ++ m.deprecationTokens) := by
  by_cases hgiven : m.deprecated.isGiven = true
  · have hsome : m.deprecationText ≠ [] := by
      unfold deprecationText
      rw [if_pos hgiven]
      exact List.cons_ne_nil _ _
    exact h.append m.closed_deprecation.open m.stops_deprecation hsome
  · unfold deprecationText deprecationTokens
    rw [if_neg hgiven, if_neg hgiven, List.append_nil, List.append_nil]
    exact h

end Metadata

section

variable {name : String} {list rest : List Char} {listTokens restTokens : List Token}

/-- The line of a field is read as its name, its arguments and what follows
them, one after another. -/
theorem lexes_line (hname : isName name = true) (hlist : Open list listTokens)
    (hopening : ∀ c ∈ list.head?, c = '(') (hrest : Graphql.Lexes rest restTokens) :
    Graphql.Lexes (name.toList ++ (list ++ (": ".toList ++ rest)))
      (.name name :: (listTokens ++ (.punct .colon :: restTokens))) := by
  have hcolon : Closed ": ".toList [.punct .colon] := Closed.marks rfl
  have hstops : Stops (list ++ (": ".toList ++ rest)) := by
    cases list with
    | nil => exact Graphql.stops_cons rfl _
    | cons c cs =>
        rw [hopening c rfl]
        exact Graphql.stops_cons rfl _
  exact Open.name hname _ _ hstops
    (hlist _ _ (Graphql.stops_cons rfl _) (hcolon _ _ hrest))

theorem open_line (hname : isName name = true) (hlist : Open list listTokens)
    (hopening : ∀ c ∈ list.head?, c = '(') (hrest : Open rest restTokens) :
    Open (name.toList ++ (list ++ (": ".toList ++ rest)))
      (.name name :: (listTokens ++ (.punct .colon :: restTokens))) := by
  intro more tail hstops hmore
  have hline := lexes_line hname hlist hopening (hrest _ _ hstops hmore)
  simpa only [List.append_assoc, List.cons_append] using hline

end

/-- A line with what is said of it. -/
theorem toList_applyMetadata (line : String) (m : Metadata) :
    (applyMetadata line m).toList
      = (if m.description.isGiven then (descriptionBlock m.description.text).toList else [])
        ++ (line.toList ++ m.deprecationText) := by
  unfold applyMetadata Metadata.deprecationText
  simp only [String.toList_append, List.append_assoc]
  congr 1
  · split <;> rfl
  · split <;> simp

/-- A line with what is said of it is a row if the line is one with its
deprecation. -/
theorem Row.applyMetadata {line : String} {m : Metadata} {ts : List Token}
    (h : Row (line.toList ++ m.deprecationText) ts) :
    Row (Sdl.applyMetadata line m).toList (m.descriptionTokens ++ ts) := by
  rw [toList_applyMetadata]
  unfold Metadata.descriptionTokens
  split
  · exact h.described _
  · exact h

end Sdl

namespace Declaration

-- ========================================================= reading fields

/-- Nothing is put between parts. -/
theorem intercalate_empty {α β : Type} (f : α → List β) (as : List α) :
    List.intercalate [] (as.map f) = as.flatMap f := by
  induction as with
  | nil => rfl
  | cons a as ih =>
      cases as with
      | nil => simp
      | cons b as =>
          rw [List.map_cons] at ih
          rw [List.map_cons, List.map_cons, List.intercalate_cons_cons, ih, List.append_nil]
          rfl

/-- An argument as it is written. -/
def argumentText (e : String × TypeRef) : List Char :=
  e.1.toList ++ (": ".toList ++ e.2.text.toList)

theorem open_argument {e : String × TypeRef} (hname : isName e.1 = true) (htype : e.2.expr.Plain) :
    Open (argumentText e) (argumentTokens e) := by
  have hcolon : Closed ": ".toList [.punct .colon] := Closed.marks rfl
  exact (Open.name hname).append (hcolon.append_open (open_expr htype))
    (Graphql.stops_cons rfl _) (List.cons_ne_nil _ _)

theorem oneLine_argument {e : String × TypeRef} (hname : isName e.1 = true)
    (htype : e.2.expr.Plain) : Text.OneLine (argumentText e) :=
  (Text.OneLine.name hname).append ((Text.OneLine.of_all (by decide)).append (oneLine_text htype))

namespace Field

variable {f : Field}

/-- The arguments of a field as they are written. -/
def argumentsText (f : Field) : List Char :=
  if f.args.isEmpty then []
  else '(' :: (", ".toList.intercalate (f.args.map argumentText) ++ [')'])

theorem toList_renderArguments (f : Field) :
    (Sdl.renderArguments f.shape.args).toList = f.argumentsText := by
  have hempty : f.shape.args.isEmpty = f.args.isEmpty := List.isEmpty_map
  unfold Sdl.renderArguments argumentsText
  rw [hempty]
  split
  · rfl
  · rw [String.toList_append, String.toList_append, String.toList_intercalate]
    unfold shape
    simp only [List.map_map]
    have texts : (String.toList ∘ (fun e : String × String => e.1 ++ ": " ++ e.2)
        ∘ fun e : String × TypeRef => (e.1, e.2.text)) = argumentText := by
      funext e
      simp [argumentText]
    rw [← texts]
    rfl

theorem closed_arguments (h : ∀ e ∈ f.args, isName e.1 = true ∧ e.2.expr.Readable) :
    Closed f.argumentsText f.argumentTokens := by
  unfold argumentsText Field.argumentTokens
  split
  · exact Closed.nil
  · have hcomma : Closed ", ".toList [] := Closed.marks rfl
    have hopening : Closed ['('] [.punct .parenL] := Closed.marks rfl
    have hclosing : Closed [')'] [.punct .parenR] := Closed.marks rfl
    have hargs := Open.intercalate hcomma (Graphql.stops_cons rfl _) (by decide) argumentText
      Declaration.argumentTokens fun e he => open_argument (h e he).1 (h e he).2.plain
    rw [intercalate_empty] at hargs
    exact hopening.append (hargs.append_closed hclosing (Graphql.stops_cons rfl _) (by decide))

theorem oneLine_arguments (h : ∀ e ∈ f.args, isName e.1 = true ∧ e.2.expr.Readable) :
    Text.OneLine f.argumentsText := by
  unfold argumentsText
  split
  · exact fun c hc => (by cases hc)
  · have hargs : Text.OneLine (", ".toList.intercalate (f.args.map argumentText)) := by
      refine Text.forall_mem_intercalate (Text.OneLine.of_all (by decide)) fun part hpart => ?_
      obtain ⟨e, he, rfl⟩ := List.mem_map.1 hpart
      exact oneLine_argument (h e he).1 (h e he).2.plain
    have hopening : Text.OneLine ['('] := Text.OneLine.of_all (by decide)
    exact hopening.append (hargs.append (Text.OneLine.of_all (by decide)))

/-- A field as it is written, without its description. -/
def plainText (f : Field) : List Char :=
  f.key.toList ++ (f.argumentsText ++ (": ".toList ++ (f.type.text.toList
    ++ f.metadata.deprecationText)))

theorem toList_fieldLine (f : Field) :
    (Sdl.fieldLine f.key f.shape).toList ++ f.metadata.deprecationText = f.plainText := by
  unfold Sdl.fieldLine plainText
  simp only [String.toList_append, toList_renderArguments, List.append_assoc]
  rfl

theorem head?_argumentsText (f : Field) : ∀ c ∈ f.argumentsText.head?, c = '(' := by
  unfold argumentsText
  split
  · exact fun c hc => (by cases hc)
  · exact fun c hc => (Option.some.inj hc).symm

theorem row_plain (h : f.WellNamed) :
    Sdl.Row f.plainText (.name f.key :: (f.argumentTokens ++ (.punct .colon ::
      (f.type.expr.tokens ++ f.metadata.deprecationTokens)))) := by
  have hopen := Sdl.open_line h.key (closed_arguments h.args).open f.head?_argumentsText
    (f.metadata.open_append (open_expr h.type.plain))
  have hline : Text.OneLine f.plainText :=
    (Text.OneLine.name h.key).append ((oneLine_arguments h.args).append
      ((Text.OneLine.of_all (by decide)).append
        ((oneLine_text h.type.plain).append f.metadata.oneLine_deprecation)))
  have hsome : f.plainText ≠ [] := by
    unfold plainText
    simp
  exact Sdl.Row.line hline hsome hopen

/-- A field is a row of its tokens. -/
theorem row_line (h : f.WellNamed) : Sdl.Row f.line.toList f.tokens := by
  refine Sdl.Row.applyMetadata ?_
  rw [toList_fieldLine]
  exact row_plain h

end Field

-- ================================================= reading declarations

/-- Lines of fields are read as their tokens. -/
theorem closed_lines {fields : List Field} (hsome : fields ≠ []) (h : ∀ f ∈ fields, f.WellNamed) :
    Closed (Sdl.laidOut (Text.linesFrom [] (lines fields).toList)) (fields.flatMap Field.tokens)
      ∧ Text.linesFrom [] (lines fields).toList ≠ [] := by
  have hrows := Sdl.Row.body hsome fun f hf => Field.row_line (h f hf)
  have htext : (lines fields).toList
      = ['\n'].intercalate (fields.map fun f => f.line.toList) := by
    unfold lines
    rw [String.toList_intercalate, List.map_map]
    rfl
  rw [htext]
  exact hrows

/-- A text is itself without a line feed at its end, perhaps with one. -/
theorem eq_withoutLineFeed (v : String) :
    v = Enums.withoutLineFeed v ∨ v = Enums.withoutLineFeed v ++ "\n" := by
  unfold Enums.withoutLineFeed
  split
  · next hlast =>
      obtain ⟨start, hstart⟩ := List.getLast?_eq_some_iff.1 hlast
      refine Or.inr (String.toList_inj.1 ?_)
      rw [String.toList_append, String.toList_ofList, hstart, List.dropLast_concat]
      rfl
  · exact Or.inl rfl

/-- A value of an enum is a row, whether or not a line feed comes after
it. -/
theorem row_value {v : String} (h : isName (Enums.withoutLineFeed v) = true) :
    Sdl.Row v.toList [.name (Enums.withoutLineFeed v)] := by
  have hvalue := eq_withoutLineFeed v
  generalize Enums.withoutLineFeed v = n at h hvalue
  have hsome : n.toList ≠ [] := by
    obtain ⟨c, rest, hname, _⟩ := Graphql.isName_iff.1 h
    rw [hname]
    exact List.cons_ne_nil _ _
  rcases hvalue with rfl | rfl
  · exact Sdl.Row.line (Text.OneLine.name h) hsome (Open.name h)
  · rw [String.toList_append]
    exact Sdl.Row.endedLine (Text.OneLine.name h) hsome (Open.name h)

/-- What is written of a type by way of a description is at most a
description. -/
theorem Described.closed {description : String} (h : Described description) :
    ∃ said : Option String, (Graphql.lex description).tokens = (said.map .blockString).toList
      ∧ Closed description.toList (Graphql.lex description).tokens := by
  rcases h with rfl | ⟨text, rfl⟩
  · exact ⟨none, rfl, Closed.nil⟩
  · have hclosed := Sdl.closed_descriptionBlock text
    rw [Graphql.lex_eq hclosed.open.lexes]
    exact ⟨some (Sdl.typeDenoted text), rfl, hclosed⟩

/-- A declaration is read as its tokens, unless a name goes on after it. -/
theorem open_text {d : Declaration} (h : d.WellNamed) : Open d.text.toList d.tokens := by
  obtain ⟨name, body⟩ := d
  obtain ⟨hname, hbody⟩ := h
  have hblank : Closed [' '] [] := Closed.marks rfl
  have hnone : Closed "".toList [] := Closed.nil
  unfold text tokens
  cases body with
  | scalar =>
      have hkeyword := (Open.name (s := "scalar") rfl).append_closed hblank
        (Graphql.stops_cons rfl []) (List.cons_ne_nil _ _)
      show Open ("scalar " ++ name.text).toList _
      rw [String.toList_append]
      exact hkeyword.append_open (Open.name hname)
  | union members =>
      have hkeyword := (Open.name (s := "union") rfl).append_closed hblank
        (Graphql.stops_cons rfl []) (List.cons_ne_nil _ _)
      have hequals : Closed " = ".toList [.punct .equals] := Closed.marks rfl
      have hpipe : Closed " | ".toList [.punct .pipe] := Closed.marks rfl
      have hmembers := Open.intercalate hpipe (Graphql.stops_cons rfl _) (by decide) String.toList
        (fun m => [Token.name m]) fun m hm => Open.name (hbody.2 m hm)
      have htail := (Open.name hname).append (hequals.append_open hmembers)
        (Graphql.stops_cons rfl _) (List.cons_ne_nil _ _)
      show Open ("union " ++ name.text ++ " = " ++ String.intercalate " | " members).toList _
      simp only [String.toList_append, String.toList_intercalate, List.append_assoc]
      exact hkeyword.append_open htail
  | enum values =>
      have hrows := Sdl.Row.body hbody.1 fun v hv => row_value (hbody.2 v hv)
      have htext : (String.intercalate "\n" values).toList
          = ['\n'].intercalate (values.map String.toList) := String.toList_intercalate
      rw [← htext, ← List.map_eq_flatMap] at hrows
      exact (Sdl.closed_renderBlock hnone rfl hname hrows.1 hrows.2).open
  | object description fields =>
      obtain ⟨_, _, hdescription⟩ := hbody.1.closed
      have hlines := closed_lines hbody.2.1 hbody.2.2
      exact (Sdl.closed_renderBlock hdescription rfl hname hlines.1 hlines.2).open
  | input fields =>
      have hlines := closed_lines hbody.1 fun f hf => (hbody.2 f hf).1
      exact (Sdl.closed_renderBlock hnone rfl hname hlines.1 hlines.2).open

/-- Declarations are read as their tokens, one after another. -/
theorem lexes_texts {ds : List Declaration} (h : ∀ d ∈ ds, d.WellNamed) :
    Graphql.Lexes (texts ds).toList (ds.flatMap tokens) := by
  have hfeeds : Closed "\n\n".toList [] := Closed.marks rfl
  have htexts := Open.intercalate hfeeds (Graphql.stops_cons rfl _) (by decide)
    (fun d => d.text.toList) tokens fun d hd => open_text (h d hd)
  unfold texts
  rw [String.toList_intercalate, List.map_map]
  rw [intercalate_empty] at htexts
  exact htexts.lexes

end Declaration

end ModelSchema
