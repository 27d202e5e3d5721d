/-
Bodies between braces. A body is broken into lines, and each line is
indented and ended, so what is read of a body is what is read of its rows
one after another, whatever line ends there are within them (`Row`). The
rows that matter are descriptions, which stay block strings when their
lines are indented, and lines of their own.
-/
import ModelSchema.Proofs.Reading.Strings

namespace ModelSchema

-- ================================================================= lines

namespace Text

theorem linesFrom_char {c : Char} (h : isLineEnd c = false) (opened cs : List Char) :
    linesFrom opened (c :: cs) = linesFrom (c :: opened) cs := by
  rw [linesFrom]
  · rw [if_neg (by rw [h]; exact Bool.false_ne_true)]
  · rintro _ rfl
    cases h

theorem linesFrom_end {c : Char} (h : isLineEnd c = true) {cs : List Char}
    (hpair : ∀ rest, c = '\r' → cs ≠ '\n' :: rest) (opened : List Char) :
    linesFrom opened (c :: cs) = opened.reverse :: linesFrom [] cs := by
  rw [linesFrom]
  · rw [if_pos h]
  · exact fun rest hc hcs => hpair rest hc hcs

theorem linesFrom_lineFeed (opened cs : List Char) :
    linesFrom opened ('\n' :: cs) = opened.reverse :: linesFrom [] cs :=
  linesFrom_end rfl (fun _ h => absurd h (by decide)) opened

/-- A text breaks where a line feed stands. -/
theorem linesFrom_append (opened cs rest : List Char) :
    linesFrom opened (cs ++ '\n' :: rest) = linesFrom opened (cs ++ ['\n']) ++ linesFrom [] rest := by
  induction opened, cs using linesFrom.induct with
  | case1 opened h => simp only [List.nil_append, linesFrom_lineFeed]; rfl
  | case2 opened _ => simp only [List.nil_append, linesFrom_lineFeed]; rfl
  | case3 opened cs ih => exact congrArg (opened.reverse :: ·) ih
  | case4 opened c cs hpair hend ih =>
      -- a carriage return at the end takes the line feed to itself
      by_cases hlast : c = '\r' ∧ cs = []
      · obtain ⟨rfl, rfl⟩ := hlast
        rfl
      · have hpair' : ∀ tail more, c = '\r' → cs ++ '\n' :: tail ≠ '\n' :: more := by
          intro tail more hc hcs
          cases cs with
          | nil => exact hlast ⟨hc, rfl⟩
          | cons d cs =>
              cases hcs
              exact hpair _ hc rfl
        rw [List.cons_append, List.cons_append, linesFrom_end hend (hpair' rest),
          linesFrom_end hend (hpair' []), ih]
        rfl
  | case5 opened c cs _ hend ih =>
      have hc : isLineEnd c = false := Bool.eq_false_iff.2 hend
      rw [List.cons_append, List.cons_append, linesFrom_char hc, linesFrom_char hc, ih]

/-- A text without line ends. -/
def OneLine (cs : List Char) : Prop := ∀ c ∈ cs, isLineEnd c = false

theorem linesFrom_oneLine {cs : List Char} (h : OneLine cs) (opened rest : List Char) :
    linesFrom opened (cs ++ rest) = linesFrom (cs.reverse ++ opened) rest := by
  induction cs generalizing opened with
  | nil => rfl
  | cons c cs ih =>
      rw [List.cons_append, linesFrom_char (h c List.mem_cons_self),
        ih fun d hd => h d (List.mem_cons_of_mem c hd), List.reverse_cons, List.append_assoc]
      rfl

/-- A line that is ended. -/
theorem linesFrom_ended {cs : List Char} (h : OneLine cs) (rest : List Char) :
    linesFrom [] (cs ++ '\n' :: rest) = cs :: linesFrom [] rest := by
  rw [linesFrom_oneLine h, linesFrom_lineFeed, List.append_nil, List.reverse_reverse]

/-- A line at the end of a text. -/
theorem linesFrom_last {cs : List Char} (h : OneLine cs) (hsome : cs ≠ []) :
    linesFrom [] cs = [cs] := by
  have hlines := linesFrom_oneLine h [] []
  rw [List.append_nil, List.append_nil, linesFrom, if_neg, List.reverse_reverse] at hlines
  · exact hlines
  · rw [List.isEmpty_iff, List.reverse_eq_nil_iff]
    exact hsome

theorem OneLine.escapeQuotes {cs : List Char} (h : OneLine cs) : OneLine (Sdl.escapeQuotes cs) := by
  intro c hc
  rcases Graphql.mem_of_mem_escapeQuotes hc with hc | rfl
  · exact h c hc
  · rfl

/-- A line whose quotes are escaped is left open as one. -/
theorem linesFrom_escapeQuotes_oneLine {opened : List Char} (h : OneLine opened)
    (rest : List Char) :
    linesFrom [] (Sdl.escapeQuotes opened.reverse ++ rest)
      = linesFrom (Sdl.escapeQuotes opened.reverse).reverse rest := by
  have hreverse : OneLine opened.reverse := fun c hc => h c (List.mem_reverse.1 hc)
  rw [linesFrom_oneLine hreverse.escapeQuotes, List.append_nil]

/-- The line that ends a text is kept, with its quotes escaped. -/
theorem linesFrom_escapeQuotes_last {opened : List Char} (h : OneLine opened) :
    linesFrom [] (Sdl.escapeQuotes opened.reverse ++ ['\n'])
      = (linesFrom opened ['\n']).map Sdl.escapeQuotes := by
  rw [linesFrom_escapeQuotes_oneLine h, linesFrom_lineFeed, linesFrom_lineFeed,
    List.reverse_reverse]
  rfl

/-- Escaping a text escapes its lines. -/
theorem linesFrom_escapeQuotes {opened : List Char} (cs : List Char) (h : OneLine opened) :
    linesFrom [] (Sdl.escapeQuotes (opened.reverse ++ cs) ++ ['\n'])
      = (linesFrom opened (cs ++ ['\n'])).map Sdl.escapeQuotes := by
  have nil : OneLine [] := fun c hc => (by cases hc)
  have hquote : ∀ {c : Char}, isLineEnd c = true → c ≠ '"' := by
    rintro c hend rfl
    cases hend
  induction opened, cs using linesFrom.induct with
  | case1 opened _ =>
      rw [List.append_nil]
      exact linesFrom_escapeQuotes_last h
  | case2 opened _ =>
      rw [List.append_nil]
      exact linesFrom_escapeQuotes_last h
  | case3 opened cs ih =>
      rw [Graphql.escapeQuotes_append _ (by decide), List.append_assoc,
        linesFrom_escapeQuotes_oneLine h,
        Graphql.escapeQuotes_cons (fun hq => by cases (Graphql.quotes_prefix_cons.1 hq).1)]
      show _ :: linesFrom [] (Sdl.escapeQuotes cs ++ ['\n']) = _
      rw [List.reverse_reverse]
      exact congrArg _ (ih nil)
  | case4 opened c cs hpair hend ih =>
      rw [Graphql.escapeQuotes_append _ (hquote hend), List.append_assoc, List.cons_append,
        linesFrom_escapeQuotes_oneLine h]
      by_cases hlast : c = '\r' ∧ cs = []
      · obtain ⟨rfl, rfl⟩ := hlast
        show [List.reverse _] = [_]
        rw [List.reverse_reverse]
      · have hpair' : ∀ more, c = '\r' → cs ++ ['\n'] ≠ '\n' :: more := by
          intro more hc hcs
          cases cs with
          | nil => exact hlast ⟨hc, rfl⟩
          | cons d cs =>
              cases hcs
              exact hpair _ hc rfl
        have hescaped : ∀ more, c = '\r' → Sdl.escapeQuotes cs ++ ['\n'] ≠ '\n' :: more := by
          intro more hc
          refine Graphql.escapeQuotes_ne_lineFeed (fun more hcs => hpair more hc hcs) ?_ more
          exact fun hcs => absurd ⟨hc, hcs⟩ hlast
        rw [List.cons_append, linesFrom_end hend hpair', linesFrom_end hend hescaped,
          List.reverse_reverse]
        exact congrArg _ (ih nil)
  | case5 opened c cs _ hend ih =>
      have hc : isLineEnd c = false := Bool.eq_false_iff.2 hend
      have hopened : OneLine (c :: opened) := by
        intro d hd
        rcases List.mem_cons.1 hd with rfl | hd
        · exact hc
        · exact h d hd
      have hnext := ih hopened
      rw [List.reverse_cons, List.append_assoc] at hnext
      rw [List.cons_append, linesFrom_char hc]
      exact hnext

end Text

-- ================================================================ layout

namespace Sdl

/-- A line with its indentation. -/
def indented (line : List Char) : List Char := if line = [] then [] else ' ' :: ' ' :: line

/-- Lines as they stand between braces, each indented and ended. -/
def laidOut (lines : List (List Char)) : List Char :=
  lines.flatMap fun line => indented line ++ ['\n']

@[simp] theorem laidOut_nil : laidOut [] = [] := rfl

theorem laidOut_cons (line : List Char) (lines : List (List Char)) :
    laidOut (line :: lines) = indented line ++ '\n' :: laidOut lines := by
  unfold laidOut
  rw [List.flatMap_cons, List.append_assoc]
  rfl

theorem laidOut_append (lines more : List (List Char)) :
    laidOut (lines ++ more) = laidOut lines ++ laidOut more := List.flatMap_append

theorem toList_indent (line : List Char) :
    (indent (String.ofList line)).toList = indented line := by
  unfold indent indented
  by_cases h : line = []
  · subst h
    rfl
  · have hne : String.ofList line ≠ "" := by
      intro hempty
      have hchars := congrArg String.toList hempty
      rw [String.toList_ofList] at hchars
      exact h hchars
    rw [if_neg hne, if_neg h, String.toList_append, String.toList_ofList, String.toList_ofList]
    rfl

/-- A definition is its head, its lines laid out, and a brace. -/
theorem toList_renderBlock (keyword name body description : String)
    (hbody : Text.linesFrom [] body.toList ≠ []) :
    (renderBlock keyword name body description).toList
      = description.toList ++ (keyword.toList ++ (' ' :: (name.toList
          ++ (" \x7b\n".toList ++ (laidOut (Text.linesFrom [] body.toList) ++ ['\x7d']))))) := by
  have lines : (['\n'].intercalate ((Text.linesFrom [] body.toList).map indented)) ++ ['\n']
      = laidOut (Text.linesFrom [] body.toList) := by
    generalize Text.linesFrom [] body.toList = ls at hbody ⊢
    induction ls with
    | nil => exact absurd rfl hbody
    | cons line ls ih =>
        cases ls with
        | nil => simp [laidOut]
        | cons next ls =>
            rw [laidOut_cons, ← ih (List.cons_ne_nil _ _)]
            simp [List.intercalate_cons_cons]
  unfold renderBlock Text.lines
  simp only [String.toList_append, String.toList_intercalate, List.map_map, ← lines]
  have indents : (String.toList ∘ indent ∘ String.ofList) = indented :=
    funext toList_indent
  rw [indents]
  simp only [List.append_assoc]
  rfl

theorem escapeQuotes_indented (line : List Char) :
    escapeQuotes (indented line) = indented (escapeQuotes line) := by
  have hblank : ∀ cs, escapeQuotes (' ' :: cs) = ' ' :: escapeQuotes cs := fun cs =>
    Graphql.escapeQuotes_cons fun h => by cases (Graphql.quotes_prefix_cons.1 h).1
  unfold indented
  by_cases h : line = []
  · subst h
    rfl
  · rw [if_neg h, if_neg (mt Graphql.escapeQuotes_eq_nil.1 h), hblank, hblank]

/-- Escaping a text that is laid out escapes its lines. -/
theorem escapeQuotes_laidOut (lines : List (List Char)) (rest : List Char) :
    escapeQuotes (laidOut lines ++ rest) = laidOut (lines.map escapeQuotes) ++ escapeQuotes rest := by
  induction lines with
  | nil => rfl
  | cons line lines ih =>
      rw [laidOut_cons, List.append_assoc, List.cons_append,
        Graphql.escapeQuotes_append _ (by decide), ih, escapeQuotes_indented, List.map_cons,
        laidOut_cons, List.append_assoc, List.cons_append]

-- ========================================================= descriptions

open Graphql (Token Closed Open Stops Sealed quotes)

theorem toList_descriptionBlock (text : String) :
    (descriptionBlock text).toList
      = quotes 3 ++ '\n' :: (escapeQuotes text.toList ++ '\n' :: (quotes 3 ++ ['\n'])) := by
  unfold descriptionBlock
  rw [String.toList_append, String.toList_append, String.toList_ofList, String.toList_ofList,
    List.append_assoc]
  rfl

/-- The text that a description of a type denotes. -/
def typeDenoted (text : String) : String :=
  Graphql.BlockString.denoted ('\n' :: (text.toList ++ ['\n']))

/-- The text that a description of a field denotes: its lines are
indented. -/
def fieldDenoted (text : String) : String :=
  Graphql.BlockString.denoted
    ('\n' :: (laidOut (Text.linesFrom [] (text.toList ++ ['\n'])) ++ [' ', ' ']))

theorem escapeQuotes_lineFeed (cs : List Char) :
    escapeQuotes ('\n' :: cs) = '\n' :: escapeQuotes cs :=
  Graphql.escapeQuotes_cons fun h => by cases (Graphql.quotes_prefix_cons.1 h).1

/-- A description of a type is one block string. -/
theorem closed_descriptionBlock (text : String) :
    Closed (descriptionBlock text).toList [.blockString (typeDenoted text)] := by
  have hsealed : Sealed ('\n' :: (text.toList ++ ['\n'])) :=
    Sealed.append ('\n' :: text.toList) (by decide)
  have hfeed : Closed ['\n'] [] := Closed.marks rfl
  have hblock := (Closed.block hsealed).append hfeed
  rw [escapeQuotes_lineFeed, Graphql.escapeQuotes_append _ (by decide)] at hblock
  rw [toList_descriptionBlock]
  have hnil : escapeQuotes [] = [] := rfl
  simpa [List.append_assoc, typeDenoted, hnil] using hblock

-- ================================================================== rows

/-- A text that is read as these tokens when it is a row of a body, ended or
not. -/
structure Row (text : List Char) (ts : List Token) : Prop where
  ended : Closed (laidOut (Text.linesFrom [] (text ++ ['\n']))) ts
  last : Closed (laidOut (Text.linesFrom [] text)) ts
  some : Text.linesFrom [] text ≠ []

variable {text : List Char} {ts : List Token}

theorem closed_laidOut_line (hsome : text ≠ []) (h : Open text ts) : Closed (laidOut [text]) ts := by
  have hblanks : Closed [' ', ' '] [] := Closed.marks rfl
  have hfeed : Closed ['\n'] [] := Closed.marks rfl
  have hpiece := hblanks.append (h.append_closed hfeed (Graphql.stops_cons rfl []) (by simp))
  rw [laidOut_cons, indented, if_neg hsome]
  simpa using hpiece

/-- A line of its own is a row. -/
theorem Row.line (hline : Text.OneLine text) (hsome : text ≠ []) (h : Open text ts) :
    Row text ts := by
  have hlast := Text.linesFrom_last hline hsome
  refine ⟨?_, ?_, ?_⟩
  · rw [Text.linesFrom_ended hline]
    exact closed_laidOut_line hsome h
  · rw [hlast]
    exact closed_laidOut_line hsome h
  · rw [hlast]
    exact List.cons_ne_nil _ _

/-- So is a line that is ended, although a blank line may come after it. -/
theorem Row.endedLine (hline : Text.OneLine text) (hsome : text ≠ []) (h : Open text ts) :
    Row (text ++ ['\n']) ts := by
  have hlast : Text.linesFrom [] (text ++ ['\n']) = [text] := Text.linesFrom_ended hline []
  have hblank : Closed (laidOut [[]]) [] := Closed.marks rfl
  refine ⟨?_, ?_, ?_⟩
  · have hpiece := (closed_laidOut_line hsome h).append hblank
    rw [List.append_nil, ← laidOut_append] at hpiece
    rw [List.append_assoc]
    show Closed (laidOut (Text.linesFrom [] (text ++ '\n' :: ['\n']))) ts
    rw [Text.linesFrom_ended hline]
    exact hpiece
  · rw [hlast]
    exact closed_laidOut_line hsome h
  · rw [hlast]
    exact List.cons_ne_nil _ _

/-- The lines of a description before a row. -/
theorem linesFrom_descriptionBlock (text : String) (rest : List Char) :
    Text.linesFrom [] ((descriptionBlock text).toList ++ rest)
      = quotes 3 :: ((Text.linesFrom [] (text.toList ++ ['\n'])).map escapeQuotes
          ++ quotes 3 :: Text.linesFrom [] rest) := by
  have hquotes : Text.OneLine (quotes 3) := by
    intro c hc
    rw [List.eq_of_mem_replicate hc]
    rfl
  have hnil : Text.OneLine [] := fun c hc => (by cases hc)
  have hlines := Text.linesFrom_escapeQuotes text.toList hnil
  rw [toList_descriptionBlock]
  simp only [List.append_assoc, List.cons_append, List.nil_append]
  rw [Text.linesFrom_ended hquotes, Text.linesFrom_append, Text.linesFrom_ended hquotes]
  exact congrArg (fun ls => quotes 3 :: (ls ++ _)) hlines

/-- A description is a block string of the row that it describes. -/
theorem Row.described (description : String) (h : Row text ts) :
    Row ((descriptionBlock description).toList ++ text)
      (.blockString (fieldDenoted description) :: ts) := by
  generalize hlines : Text.linesFrom [] (description.toList ++ ['\n']) = lines
  have hsealed : Sealed ('\n' :: (laidOut lines ++ [' ', ' '])) := by
    have hsplit : '\n' :: (laidOut lines ++ [' ', ' '])
        = ('\n' :: (laidOut lines ++ [' '])) ++ [' '] := by simp
    rw [hsplit]
    exact Sealed.append _ (by decide)
  have hblock : ∀ {rest : List (List Char)}, Closed (laidOut rest) ts →
      Closed (laidOut (quotes 3 :: (lines.map escapeQuotes ++ quotes 3 :: rest)))
        (.blockString (fieldDenoted description) :: ts) := by
    intro rest hrest
    have hblanks : Closed [' ', ' '] [] := Closed.marks rfl
    have hfeed : Closed ['\n'] [] := Closed.marks rfl
    have hpiece := hblanks.append ((Closed.block hsealed).append (hfeed.append hrest))
    have hescaped : escapeQuotes ('\n' :: (laidOut lines ++ [' ', ' ']))
        = '\n' :: (laidOut (lines.map escapeQuotes) ++ [' ', ' ']) := by
      rw [escapeQuotes_lineFeed, escapeQuotes_laidOut]
      rfl
    have hquotes : indented (quotes 3) = ' ' :: ' ' :: quotes 3 := rfl
    rw [hescaped] at hpiece
    rw [laidOut_cons, laidOut_append, laidOut_cons, hquotes, fieldDenoted, hlines]
    simpa [List.append_assoc] using hpiece
  refine ⟨?_, ?_, ?_⟩
  · rw [List.append_assoc, linesFrom_descriptionBlock, hlines]
    exact hblock h.ended
  · rw [linesFrom_descriptionBlock, hlines]
    exact hblock h.last
  · rw [linesFrom_descriptionBlock]
    exact List.cons_ne_nil _ _

/-- Rows of a body are read one after another. -/
theorem Row.body {α : Type} {row : α → List Char} {tokens : α → List Token} {as : List α}
    (hsome : as ≠ []) (h : ∀ a ∈ as, Row (row a) (tokens a)) :
    Closed (laidOut (Text.linesFrom [] (['\n'].intercalate (as.map row)))) (as.flatMap tokens)
      ∧ Text.linesFrom [] (['\n'].intercalate (as.map row)) ≠ [] := by
  induction as with
  | nil => exact absurd rfl hsome
  | cons a as ih =>
      have hhead := h a List.mem_cons_self
      cases as with
      | nil => simpa using ⟨hhead.last, hhead.some⟩
      | cons b as =>
          have htail := ih (List.cons_ne_nil _ _) fun b hb => h b (List.mem_cons_of_mem a hb)
          have hbody : ['\n'].intercalate ((a :: b :: as).map row)
              = row a ++ '\n' :: ['\n'].intercalate ((b :: as).map row) := by
            simp [List.intercalate_cons_cons]
          rw [hbody, Text.linesFrom_append, laidOut_append]
          refine ⟨hhead.ended.append htail.1, ?_⟩
          exact List.append_ne_nil_of_right_ne_nil _ htail.2

/-- A definition is read as its description, its head, and its body between
braces. -/
theorem closed_renderBlock {keyword name body description : String} {said inside : List Token}
    (hdescription : Closed description.toList said) (hkeyword : Graphql.isName keyword = true)
    (hname : Graphql.isName name = true)
    (hbody : Closed (laidOut (Text.linesFrom [] body.toList)) inside)
    (hsome : Text.linesFrom [] body.toList ≠ []) :
    Closed (renderBlock keyword name body description).toList
      (said ++ (.name keyword :: .name name :: .punct .braceL :: (inside ++ [.punct .braceR]))) := by
  have hblank : Closed [' '] [] := Closed.marks rfl
  have hopening : Closed " \x7b\n".toList [.punct .braceL] := Closed.marks rfl
  have hclosing : Closed ['\x7d'] [.punct .braceR] := Closed.marks rfl
  have hhead := (Open.name hname).append_closed (hopening.append (hbody.append hclosing))
    (Graphql.stops_cons rfl _) (List.cons_ne_nil _ _)
  have htail := (Open.name hkeyword).append_closed (hblank.append hhead)
    (Graphql.stops_cons rfl _) (List.cons_ne_nil _ _)
  rw [toList_renderBlock _ _ _ _ hsome]
  exact hdescription.append htail

end Sdl

end ModelSchema
