/-
Texts of parts of documents. A part that takes the whole of a text takes the
same tokens in the middle of a document, if what follows does not go on with
it (`exists_takes_of_run`). Items that each take their tokens are read one
after another between marks, and rows of fields between the braces of a type
are its fields (`parse_renderBlock`).
-/
import ModelSchema.Proofs.Joining.Texts
import ModelSchema.Proofs.Reading.Documents
import ModelSchema.Proofs.Reading.Indentation

namespace ModelSchema

namespace Graphql

namespace Parser

variable {α : Type}

/-- A part of a document that is a whole text. -/
def whole (p : Parser α) : Parser α := do
  let a ← p
  let t ← peek
  if t = .eof then return a else throw (.expected "<EOF>" t)

/-- After a part that is a whole text no token is left. -/
theorem ok_of_whole {p : Parser α} {s s' : Lexed} {a : α} (h : p.whole s = .ok (a, s')) :
    p s = .ok (a, s') ∧ current s'.tokens = .eof := by
  obtain ⟨b, left, htaken, hend⟩ := bind_ok.1 h
  obtain ⟨t, left', hpeek, hend⟩ := bind_ok.1 hend
  cases hpeek
  split at hend
  · next hcurrent =>
    cases hend
    exact ⟨htaken, hcurrent⟩
  · cases hend

/-- A part that takes these tokens, whatever comes next if it does not go on
with the part. -/
def Takes (goesBy : Token → Prop) (p : Nat → Parser α) (ts : List Token) (a : α) : Prop :=
  ∀ fuel, ts.length < fuel → ∀ rest, goesBy (current rest) →
    p fuel (upon (ts ++ rest)) = .ok (a, upon rest)

/-- A part that is a whole text takes the tokens of the text. -/
theorem exists_takes_of_run {stop : α → Token → Prop} {p : Nat → Parser α} {s : String} {a : α}
    (hp : ∀ {fuel fuel'}, fuel ≤ fuel' → Follows stop (p fuel) (p fuel'))
    (h : run s (fun fuel => (p fuel).whole) = .ok a) :
    ∃ ts, lex s = ⟨ts, none⟩ ∧ Takes (stop a) p ts a := by
  obtain ⟨s', hread, hsome⟩ := exists_of_run h
  obtain ⟨htaken, hcurrent⟩ := ok_of_whole hread
  have hkeeps := (hp (Nat.le_refl _) _ htaken).1
  have hnil : s'.tokens = [] :=
    nil_of_current (fun heof => ne_eof_of_lex s (hkeeps.suffix.subset heof)) hcurrent
  have hnone : (lex s).fault = none := by
    by_contra hfault
    exact hkeeps.guarded hfault (hsome hfault) hnil
  refine ⟨(lex s).tokens, by rw [← hnone], fun fuel hfuel rest hrest => ?_⟩
  have hagain := (hp hfuel _ htaken).2 rest fun _ => hrest
  rwa [hnil, List.nil_append] at hagain

end Parser

/-- The arguments of a field that a text lists. -/
def parseArguments (s : String) : Except SyntaxFault (List InputValue) :=
  Parser.run s fun fuel => (Parser.argumentDefinitions fuel).whole

/-- The type that a text refers to. -/
def parseType (s : String) : Except SyntaxFault TypeExpr :=
  Parser.run s fun _ => Parser.typeExpr.whole

-- ================================================================= items

/-- A text with its tokens, and what these are read as. -/
structure Written (α : Type) where
  text : List Char
  tokens : List Token
  value : α

open Graphql.Parser (Items Takes endsItem startsItem optionalMany)

namespace Written

variable {α : Type} {p : Nat → Parser α} {ws : List (Written α)}

/-- A text that is an item of this kind, one of a row of them. -/
structure IsItem (p : Nat → Parser α) (w : Written α) : Prop where
  starts : ∃ t ts, w.tokens = t :: ts ∧ startsItem t = true
  takes : Takes (endsItem · = true) p w.tokens w.value

/-- Items are read one after another with the fuel that their tokens ask
for. -/
theorem items (h : ∀ w ∈ ws, w.IsItem p) {fuel : Nat}
    (hfuel : (ws.flatMap tokens).length < fuel) :
    ws.length < fuel ∧ Items (p fuel) tokens (fun w => pure w.value) ws := by
  refine ⟨Nat.lt_of_le_of_lt (Parser.length_le_flatMap fun w hw => ?_) hfuel,
    fun w hw => (h w hw).starts, fun w hw rest hrest => ?_⟩
  · obtain ⟨t, ts, hts, -⟩ := (h w hw).starts
    rw [hts]
    exact Nat.succ_pos _
  · exact (h w hw).takes fuel
      (Nat.lt_of_le_of_lt (Parser.length_le_flatMap_of_mem tokens hw) hfuel) rest hrest

/-- Items between marks are read as these, whatever comes next. -/
theorem takes_optionalMany {opening close : Punct} (hclose : close = .braceR ∨ close = .parenR)
    (hsome : ws ≠ []) (h : ∀ w ∈ ws, w.IsItem p) :
    Takes (fun _ => True) (fun fuel => optionalMany opening close (p fuel) fuel)
      (.punct opening :: (ws.flatMap tokens ++ [.punct close])) (ws.map value) := by
  intro fuel hfuel rest _
  rw [List.length_cons, List.length_append] at hfuel
  have hinner : (ws.flatMap tokens).length < fuel := by omega
  obtain ⟨hlength, hitems⟩ := items h hinner
  have hread : optionalMany opening close (p fuel) fuel
      (Parser.upon (.punct opening :: (ws.flatMap tokens ++ .punct close :: rest))) = _ :=
    Parser.optionalMany_eq hclose hsome hitems hlength rest
  rw [List.mapM_pure] at hread
  rw [List.cons_append, List.append_assoc]
  exact hread

end Written

end Graphql

-- =========================================================== rows of fields

namespace Sdl

open Graphql (Written FieldDefinition)
open Graphql.Parser (bind_eq_of_ok definition definitions fieldDefinition upon)

/-- A row of a body that is a field. -/
structure IsField (w : Written FieldDefinition) : Prop where
  row : Row w.text w.tokens
  item : w.IsItem fieldDefinition

/-- Rows of fields between the braces of a type are read as its fields. -/
theorem parse_renderBlock {name body : String} {ws : List (Written FieldDefinition)}
    (hname : Graphql.isName name = true) (hsome : ws ≠ []) (h : ∀ w ∈ ws, IsField w)
    (hbody : body.toList = ['\n'].intercalate (ws.map Written.text)) :
    Graphql.parse (renderBlock "type" name body "")
      = .ok [.type ⟨none, name, [], .object [] (ws.map Written.value)⟩] := by
  obtain ⟨hrows, hlines⟩ := Row.body hsome fun w hw => (h w hw).row
  rw [← hbody] at hrows hlines
  have hnone : Graphql.Closed "".toList [] := Graphql.Closed.nil
  have hkeyword : Graphql.isName "type" = true := rfl
  have hblock := closed_renderBlock hnone hkeyword hname hrows hlines
  have hlex := Graphql.lex_eq hblock.open.lexes
  unfold Graphql.parse
  rw [Graphql.Parser.run_eq hlex, List.nil_append]
  generalize hbound : List.length _ = bound
  have hfuel : (.punct .braceL :: (ws.flatMap Written.tokens ++ [.punct .braceR])).length
      < bound + 1 := by
    simp only [List.length_cons] at hbound ⊢
    omega
  have hfields : Graphql.Parser.fieldDefinitions (bound + 1)
      (upon (.punct .braceL :: (ws.flatMap Written.tokens ++ [.punct .braceR]) ++ []))
        = .ok (ws.map Written.value, upon []) :=
    Written.takes_optionalMany (.inl rfl) hsome (fun w hw => (h w hw).item) _ hfuel [] trivial
  rw [List.append_nil] at hfields
  have htype : definition (bound + 1) (upon (.name "type" :: .name name :: .punct .braceL
        :: (ws.flatMap Written.tokens ++ [.punct .braceR])))
      = .ok (.type ⟨none, name, [], .object [] (ws.map Written.value)⟩, upon []) :=
    Declaration.definition_eq_of_typeTail none rfl
      (Declaration.typeTail_object none name (Nat.succ_pos bound) hfields)
  show Except.map Prod.fst (definitions _ _ _) = _
  unfold definitions
  rw [bind_eq_of_ok htype]
  rfl

end Sdl

end ModelSchema
