/-
What is said of types and fields, read back. A description is a block
string between quotes on lines of their own, so all of its lines count for
the indentation that they have in common; the two blanks that each line
gets between braces are taken away again with it (`value_laidOut`). What is
left of a description is the text of its lines, normalised, and of a reason
the reason itself, whatever they say (`lex_described`).
-/
import Mathlib.Data.List.Forall2
import ModelSchema.Proofs.Reading.Declarations

namespace ModelSchema

open Graphql (Token Closed Open isName)

-- ======================================================== normalised lines

namespace Graphql.BlockString

/-- Lines without the blank ones at the start and at the end. -/
def trimBlank (lines : List (List Char)) : List (List Char) :=
  ((lines.dropWhile isBlankLine).reverse.dropWhile isBlankLine).reverse

/-- Lines without the indentation that they have in common, and without the
blank ones at the start and at the end. -/
def outdented (lines : List (List Char)) : List (List Char) :=
  trimBlank (lines.map (List.drop (commonIndent lines)))

/-- The text of lines, normalised. -/
def normalised (lines : List String) : String :=
  String.ofList (['\n'].intercalate (outdented (lines.map String.toList)))

/-- The lines of a text that ends lines as a document does: at a line feed,
a carriage return, or both in this order. -/
def lines (s : String) : List String := (linesFrom [] s.toList).map String.ofList

variable {line : List Char} {ls : List (List Char)}

theorem trimBlank_cons (h : isBlankLine line = true) : trimBlank (line :: ls) = trimBlank ls := by
  unfold trimBlank
  rw [List.dropWhile_cons, if_pos h]

theorem trimBlank_concat (h : isBlankLine line = true) :
    trimBlank (ls ++ [line]) = trimBlank ls := by
  unfold trimBlank
  rw [List.dropWhile_append]
  split
  · next hnone =>
      rw [List.isEmpty_iff.1 hnone, List.dropWhile_cons, if_pos h]
      rfl
  · rw [List.reverse_append, List.reverse_singleton, List.singleton_append, List.dropWhile_cons,
      if_pos h]

/-- Blank lines at the end are left out. -/
theorem trimBlank_append {blanks : List (List Char)} (h : ∀ l ∈ blanks, isBlankLine l = true) :
    trimBlank (ls ++ blanks) = trimBlank ls := by
  induction blanks generalizing ls with
  | nil => rw [List.append_nil]
  | cons l blanks ih =>
      rw [List.append_cons, ih fun l' hl' => h l' (List.mem_cons_of_mem l hl'),
        trimBlank_concat (h l List.mem_cons_self)]

/-- A blank line does not count for the indentation. -/
theorem commonIndent_concat (h : isBlankLine line = true) :
    commonIndent (ls ++ [line]) = commonIndent ls := by
  unfold commonIndent
  rw [List.filter_append, List.filter_cons_of_neg (by rw [h]; decide), List.filter_nil,
    List.append_nil]

/-- Under a first line without contents all lines lose their common
indentation. -/
theorem dedent_nil_cons (ls : List (List Char)) : dedent ([] :: ls) = outdented ls :=
  trimBlank_cons rfl

theorem isBlankLine_drop (h : isBlankLine line = true) (n : Nat) :
    isBlankLine (line.drop n) = true :=
  List.all_eq_true.2 fun c hc => List.all_eq_true.1 h c (List.mem_of_mem_drop hc)

theorem forall_isBlankLine_drop (h : ∀ l ∈ ls, isBlankLine l = true) (n : Nat) :
    ∀ l ∈ ls.map (List.drop n), isBlankLine l = true := by
  intro l hl
  obtain ⟨l', hl', rfl⟩ := List.mem_map.1 hl
  exact isBlankLine_drop (h l' hl') n

/-- A blank line at the end is left out. -/
theorem outdented_concat (h : isBlankLine line = true) :
    outdented (ls ++ [line]) = outdented ls := by
  unfold outdented
  rw [commonIndent_concat h, List.map_append, List.map_singleton]
  exact trimBlank_concat (isBlankLine_drop h _)

end Graphql.BlockString

-- ========================================================= between braces

namespace Sdl

open Graphql.BlockString

/-- A line with two blanks more, unless it is empty. -/
def Padded (line line' : List Char) : Prop :=
  line' = ' ' :: ' ' :: line ∨ line = [] ∧ line' = []

theorem padded_indented (line : List Char) : Padded line (indented line) := by
  unfold indented
  split
  · next h => exact .inr ⟨h, rfl⟩
  · exact .inl rfl

namespace Padded

variable {line line' : List Char}

theorem isBlankLine (h : Padded line line') :
    Graphql.BlockString.isBlankLine line' = Graphql.BlockString.isBlankLine line := by
  rcases h with rfl | ⟨rfl, rfl⟩
  · rfl
  · rfl

theorem drop (h : Padded line line') (n : Nat) : line'.drop (n + 2) = line.drop n := by
  rcases h with rfl | ⟨rfl, rfl⟩
  · rfl
  · rw [List.drop_nil, List.drop_nil]

theorem indentation (h : Padded line line')
    (hfull : Graphql.BlockString.isBlankLine line = false) :
    Graphql.BlockString.indentation line' = Graphql.BlockString.indentation line + 2 := by
  rcases h with rfl | ⟨rfl, rfl⟩
  · rfl
  · cases hfull

end Padded

/-- The smallest of numbers moves with them. -/
theorem min?_map_add (ns : List Nat) (k : Nat) :
    (ns.map (· + k)).min? = ns.min?.map (· + k) := by
  cases ns with
  | nil => rfl
  | cons n ns =>
      rw [List.map_cons, List.min?_cons', List.min?_cons']
      show some _ = some _
      induction ns generalizing n with
      | nil => rfl
      | cons n' ns ih =>
          rw [List.map_cons, List.foldl_cons, List.foldl_cons, ← ih]
          congr 2
          omega

section

variable {ls ls' : List (List Char)}

/-- The lines that count are indented by two more. -/
theorem indentations_padded (h : List.Forall₂ Padded ls ls') :
    (ls'.filter fun l => !isBlankLine l).map indentation
      = ((ls.filter fun l => !isBlankLine l).map indentation).map (· + 2) := by
  induction h with
  | nil => rfl
  | @cons line line' ls ls' hline _ ih =>
      have hblank := hline.isBlankLine
      cases hfull : isBlankLine line with
      | true =>
          rw [hfull] at hblank
          rw [List.filter_cons_of_neg (by rw [hblank]; decide),
            List.filter_cons_of_neg (by rw [hfull]; decide), ih]
      | false =>
          rw [hfull] at hblank
          rw [List.filter_cons_of_pos (by rw [hblank]; decide),
            List.filter_cons_of_pos (by rw [hfull]; decide), List.map_cons, List.map_cons,
            List.map_cons, ih, hline.indentation hfull]

/-- Padded lines have two blanks more in common, if they are not all blank. -/
theorem commonIndent_padded (h : List.Forall₂ Padded ls ls')
    (hfull : ∃ l ∈ ls, isBlankLine l = false) : commonIndent ls' = commonIndent ls + 2 := by
  unfold commonIndent
  rw [indentations_padded h, min?_map_add]
  obtain ⟨l, hl, hfull⟩ := hfull
  cases hsome : ((ls.filter fun l => !isBlankLine l).map indentation).min? with
  | none =>
      rw [List.min?_eq_none_iff, List.map_eq_nil_iff] at hsome
      have hmem : l ∈ ls.filter fun l => !isBlankLine l :=
        List.mem_filter.2 ⟨hl, by rw [hfull]; rfl⟩
      rw [hsome] at hmem
      cases hmem
  | some n => rfl

theorem map_drop_padded (h : List.Forall₂ Padded ls ls') (n : Nat) :
    ls'.map (List.drop (n + 2)) = ls.map (List.drop n) := by
  induction h with
  | nil => rfl
  | cons hline _ ih => rw [List.map_cons, List.map_cons, ih, hline.drop]

theorem forall_isBlankLine_padded (h : List.Forall₂ Padded ls ls')
    (hblank : ∀ l ∈ ls, isBlankLine l = true) : ∀ l ∈ ls', isBlankLine l = true := by
  induction h with
  | nil => exact hblank
  | cons hline _ ih =>
      rw [List.forall_mem_cons] at hblank ⊢
      exact ⟨hline.isBlankLine.trans hblank.1, ih hblank.2⟩

/-- The blanks that lines are padded with are taken away again, also after
lines that do not count for the indentation. -/
theorem trimBlank_padded (before : List (List Char)) (h : List.Forall₂ Padded ls ls') :
    trimBlank (before ++ ls'.map (List.drop (commonIndent ls')))
      = trimBlank (before ++ ls.map (List.drop (commonIndent ls))) := by
  by_cases hfull : ∃ l ∈ ls, isBlankLine l = false
  · rw [commonIndent_padded h hfull, map_drop_padded h]
  · have hblank : ∀ l ∈ ls, isBlankLine l = true := fun l hl =>
      Bool.not_eq_false _ ▸ fun hnot => hfull ⟨l, hl, hnot⟩
    rw [trimBlank_append (forall_isBlankLine_drop hblank _),
      trimBlank_append (forall_isBlankLine_drop (forall_isBlankLine_padded h hblank) _)]

theorem outdented_padded (h : List.Forall₂ Padded ls ls') : outdented ls' = outdented ls :=
  trimBlank_padded [] h

/-- Padding all lines of a block string but the first one changes nothing. -/
theorem value_padded (first : List Char) (h : List.Forall₂ Padded ls ls') :
    value (first :: ls') = value (first :: ls) :=
  congrArg (fun ls => String.ofList (['\n'].intercalate ls)) (trimBlank_padded [first] h)

theorem outdented_indented (ls : List (List Char)) :
    outdented (ls.map indented) = outdented ls := by
  refine outdented_padded ?_
  rw [List.forall₂_map_right_iff]
  exact List.forall₂_same.2 fun l _ => padded_indented l

end

end Sdl

-- ============================================================== line ends

namespace Text

/-- The lines of a text have no ends within them. -/
theorem oneLine_of_mem_linesFrom {opened cs : List Char} (h : OneLine opened) {l : List Char}
    (hl : l ∈ linesFrom opened cs) : OneLine l := by
  have nil : OneLine [] := fun _ hc => by cases hc
  have ended {opened : List Char} (h : OneLine opened) : OneLine opened.reverse :=
    fun c hc => h c (List.mem_reverse.1 hc)
  induction opened, cs using linesFrom.induct with
  | case1 opened hnone =>
      rw [linesFrom, if_pos hnone] at hl
      cases hl
  | case2 opened hsome =>
      rw [linesFrom, if_neg hsome] at hl
      rw [List.mem_singleton.1 hl]
      exact ended h
  | case3 opened cs ih =>
      rcases List.mem_cons.1 hl with rfl | hl
      · exact ended h
      · exact ih nil hl
  | case4 opened c cs hpair hend ih =>
      rw [linesFrom_end hend fun rest hc hcs => hpair rest hc hcs] at hl
      rcases List.mem_cons.1 hl with rfl | hl
      · exact ended h
      · exact ih nil hl
  | case5 opened c cs _ hend ih =>
      have hc : isLineEnd c = false := Bool.eq_false_iff.2 hend
      rw [linesFrom_char hc] at hl
      refine ih (fun d hd => ?_) hl
      rcases List.mem_cons.1 hd with rfl | hd
      · exact hc
      · exact h d hd

/-- A line feed at the end of a text ends its last line, or adds an empty
one. -/
theorem linesFrom_lineFeed_last (opened cs : List Char) :
    linesFrom opened (cs ++ ['\n']) = linesFrom opened cs
      ∨ linesFrom opened (cs ++ ['\n']) = linesFrom opened cs ++ [[]] := by
  induction opened, cs using linesFrom.induct with
  | case1 opened hnone =>
      rw [List.isEmpty_iff.1 hnone]
      exact .inr rfl
  | case2 opened hsome =>
      rw [linesFrom, if_neg hsome]
      exact .inl (linesFrom_lineFeed opened [])
  | case3 opened cs ih =>
      exact ih.imp (congrArg (opened.reverse :: ·)) (congrArg (opened.reverse :: ·))
  | case4 opened c cs hpair hend ih =>
      -- a carriage return at the end takes the line feed to itself
      by_cases hlast : c = '\r' ∧ cs = []
      · obtain ⟨rfl, rfl⟩ := hlast
        exact .inl rfl
      · have hpair' : ∀ more, c = '\r' → cs ++ ['\n'] ≠ '\n' :: more := by
          intro more hc hcs
          cases cs with
          | nil => exact hlast ⟨hc, rfl⟩
          | cons d cs =>
              cases hcs
              exact hpair _ hc rfl
        rw [List.cons_append, linesFrom_end hend hpair',
          linesFrom_end hend fun rest hc hcs => hpair rest hc hcs]
        exact ih.imp (congrArg (opened.reverse :: ·)) (congrArg (opened.reverse :: ·))
  | case5 opened c cs _ hend ih =>
      have hc : isLineEnd c = false := Bool.eq_false_iff.2 hend
      rw [List.cons_append, linesFrom_char hc, linesFrom_char hc]
      exact ih

end Text

namespace Graphql.BlockString

theorem linesFrom_char {c : Char} (h : c ≠ '\n' ∧ c ≠ '\r') (opened cs : List Char) :
    linesFrom opened (c :: cs) = linesFrom (c :: opened) cs := by
  rw [linesFrom]
  · rw [if_neg (not_or.2 h)]
  · rintro _ rfl
    exact absurd rfl h.2

theorem linesFrom_end {c : Char} {cs : List Char} (h : c = '\n' ∨ c = '\r')
    (hpair : ∀ rest, c = '\r' → cs ≠ '\n' :: rest) (opened : List Char) :
    linesFrom opened (c :: cs) = opened.reverse :: linesFrom [] cs := by
  rw [linesFrom]
  · rw [if_pos h]
  · exact fun rest hc hcs => hpair rest hc hcs

theorem linesFrom_lineFeed (opened cs : List Char) :
    linesFrom opened ('\n' :: cs) = opened.reverse :: linesFrom [] cs := rfl

/-- A line without ends of other texts is one line here, too. -/
theorem linesFrom_ended {l : List Char} (h : Text.OneLine l) (opened rest : List Char) :
    linesFrom opened (l ++ '\n' :: rest) = (opened.reverse ++ l) :: linesFrom [] rest := by
  have inner : ∀ c ∈ l, c ≠ '\n' ∧ c ≠ '\r' := by
    intro c hc
    constructor <;>
    · rintro rfl
      cases h _ hc
  induction l generalizing opened with
  | nil => rw [List.nil_append, linesFrom_lineFeed, List.append_nil]
  | cons c l ih =>
      rw [List.cons_append, linesFrom_char (inner c List.mem_cons_self),
        ih (fun d hd => h d (List.mem_cons_of_mem c hd)) _
          fun d hd => inner d (List.mem_cons_of_mem c hd),
        List.reverse_cons, List.append_assoc]
      rfl

/-- The lines of a text that is laid out are its lines, indented. -/
theorem linesFrom_laidOut {ls : List (List Char)} (h : ∀ l ∈ ls, Text.OneLine l)
    (rest : List Char) :
    linesFrom [] (Sdl.laidOut ls ++ rest) = ls.map Sdl.indented ++ linesFrom [] rest := by
  induction ls with
  | nil => rfl
  | cons l ls ih =>
      have hindented : Text.OneLine (Sdl.indented l) := by
        unfold Sdl.indented
        split
        · exact fun c hc => by cases hc
        · have hblanks : Text.OneLine [' ', ' '] := Text.OneLine.of_all rfl
          exact hblanks.append (h l List.mem_cons_self)
      rw [Sdl.laidOut_cons, List.append_assoc, List.cons_append, linesFrom_ended hindented,
        ih fun l' hl' => h l' (List.mem_cons_of_mem l hl')]
      rfl

/-- A line feed at the end of a text adds an empty line, unless it is one
end with what is before it. -/
theorem linesFrom_lineFeed_last (opened cs : List Char) :
    linesFrom opened (cs ++ ['\n']) = linesFrom opened cs
      ∨ linesFrom opened (cs ++ ['\n']) = linesFrom opened cs ++ [[]] := by
  induction opened, cs using linesFrom.induct with
  | case1 opened => exact .inr rfl
  | case2 opened cs ih =>
      exact ih.imp (congrArg (opened.reverse :: ·)) (congrArg (opened.reverse :: ·))
  | case3 opened c cs hpair hend ih =>
      by_cases hlast : c = '\r' ∧ cs = []
      · obtain ⟨rfl, rfl⟩ := hlast
        exact .inl rfl
      · have hpair' : ∀ more, c = '\r' → cs ++ ['\n'] ≠ '\n' :: more := by
          intro more hc hcs
          cases cs with
          | nil => exact hlast ⟨hc, rfl⟩
          | cons d cs =>
              cases hcs
              exact hpair _ hc rfl
        rw [List.cons_append, linesFrom_end hend hpair',
          linesFrom_end hend fun rest hc hcs => hpair rest hc hcs]
        exact ih.imp (congrArg (opened.reverse :: ·)) (congrArg (opened.reverse :: ·))
  | case4 opened c cs hpair hend ih =>
      rw [List.cons_append, linesFrom_char (not_or.1 hend), linesFrom_char (not_or.1 hend)]
      exact ih

end Graphql.BlockString

-- ========================================================== what is denoted

namespace Sdl

open Graphql

/-- What is denoted by lines of which none comes before the first feed. -/
theorem denoted_lineFeed (cs : List Char) :
    BlockString.denoted ('\n' :: cs) = String.ofList
      (['\n'].intercalate (BlockString.outdented (BlockString.linesFrom [] cs))) := by
  unfold BlockString.denoted BlockString.value
  rw [BlockString.linesFrom_lineFeed, List.reverse_nil, BlockString.dedent_nil_cons]

theorem toList_map_ofList (ls : List (List Char)) :
    (ls.map String.ofList).map String.toList = ls := by
  rw [List.map_map]
  exact (List.map_congr_left fun l _ => String.toList_ofList).trans (List.map_id' ls)

/-- A description of a field denotes its lines, normalised. -/
theorem fieldDenoted_eq (text : String) :
    fieldDenoted text = BlockString.normalised (Text.lines text) := by
  have oneLine : ∀ l ∈ Text.linesFrom [] (text.toList ++ ['\n']), Text.OneLine l :=
    fun l hl => Text.oneLine_of_mem_linesFrom (fun _ hc => by cases hc) hl
  have hlines : BlockString.linesFrom []
        (laidOut (Text.linesFrom [] (text.toList ++ ['\n'])) ++ [' ', ' '])
      = (Text.linesFrom [] (text.toList ++ ['\n'])).map indented ++ [[' ', ' ']] :=
    BlockString.linesFrom_laidOut oneLine [' ', ' ']
  have hlast : BlockString.outdented (Text.linesFrom [] (text.toList ++ ['\n']))
      = BlockString.outdented (Text.linesFrom [] text.toList) := by
    rcases Text.linesFrom_lineFeed_last [] text.toList with h | h
    · rw [h]
    · rw [h, BlockString.outdented_concat rfl]
  unfold fieldDenoted BlockString.normalised Text.lines
  rw [denoted_lineFeed, hlines, BlockString.outdented_concat rfl, outdented_indented, hlast,
    toList_map_ofList]

/-- A description of a type denotes its lines, normalised, where only the
line ends of documents count. -/
theorem typeDenoted_eq (text : String) :
    typeDenoted text = BlockString.normalised (BlockString.lines text) := by
  have hlast : BlockString.outdented (BlockString.linesFrom [] (text.toList ++ ['\n']))
      = BlockString.outdented (BlockString.linesFrom [] text.toList) := by
    rcases BlockString.linesFrom_lineFeed_last [] text.toList with h | h
    · rw [h]
    · rw [h, BlockString.outdented_concat rfl]
  unfold typeDenoted BlockString.normalised BlockString.lines
  rw [denoted_lineFeed, hlast, toList_map_ofList]

/-- What is said of a type: what its configuration says, else what its model
says of itself. -/
def saidOfType (config : Value) (m : Option Model) : Value :=
  (match config with
    | .map settings => Value.getD settings "_description"
    | _ => .null).orElse (match m with | some m => m.description | none => .null)

/-- The token of what is said of a type, if anything is. -/
def saidTokens (said : Value) : List Token :=
  if said.isGiven then
    [.blockString (BlockString.normalised (BlockString.lines said.text))]
  else []

theorem closed_typeDescription (config : Value) (m : Option Model) :
    Closed (typeDescription config m).toList (saidTokens (saidOfType config m)) := by
  show Closed (if (saidOfType config m).isGiven then
    descriptionBlock (saidOfType config m).text else "").toList _
  unfold saidTokens
  split
  · rw [← typeDenoted_eq]
    exact closed_descriptionBlock _
  · exact Closed.nil

end Sdl

-- ============================================================ whole blocks

/-- A line of a field without arguments, and what is said of it. -/
structure SaidLine where
  name : String
  type : TypeRef
  description : String
  reason : String

namespace SaidLine

/-- What is said of the field. -/
def metadata (l : SaidLine) : Sdl.Metadata := ⟨.str l.description, .str l.reason⟩

/-- The line as it is written, with what is said of it. -/
def text (l : SaidLine) : String :=
  Sdl.applyMetadata (l.name ++ ": " ++ l.type.text) l.metadata

/-- What is read of it: the description unless it is empty, the line, and
the reason unless it is empty. -/
def tokens (l : SaidLine) : List Token :=
  (if l.description = "" then []
    else [.blockString (Graphql.BlockString.normalised (Text.lines l.description))])
  ++ (.name l.name :: .punct .colon :: (l.type.expr.tokens
  ++ if l.reason = "" then []
    else [.punct .at, .name "deprecated", .punct .parenL, .name "reason", .punct .colon,
      .string l.reason, .punct .parenR]))

/-- A line whose names may stand in a document. -/
structure WellNamed (l : SaidLine) : Prop where
  name : isName l.name = true
  type : l.type.expr.Plain

theorem isGiven_str (s : String) : (Value.str s).isGiven = true ↔ s ≠ "" := by
  simp [Value.isGiven]

theorem tokens_eq (l : SaidLine) :
    l.tokens = l.metadata.descriptionTokens ++ (.name l.name :: .punct .colon
      :: (l.type.expr.tokens ++ l.metadata.deprecationTokens)) := by
  have hdescription : l.metadata.descriptionTokens = if l.description = "" then []
      else [.blockString (Graphql.BlockString.normalised (Text.lines l.description))] := by
    unfold Sdl.Metadata.descriptionTokens metadata
    rw [← Sdl.fieldDenoted_eq]
    by_cases hempty : l.description = "" <;> simp [isGiven_str, hempty, Value.text]
  have hreason : l.metadata.deprecationTokens = if l.reason = "" then [] else [.punct .at,
      .name "deprecated", .punct .parenL, .name "reason", .punct .colon, .string l.reason,
      .punct .parenR] := by
    unfold Sdl.Metadata.deprecationTokens metadata
    by_cases hempty : l.reason = "" <;> simp [isGiven_str, hempty, Value.text]
  rw [hdescription, hreason]
  rfl

theorem row {l : SaidLine} (h : l.WellNamed) : Sdl.Row l.text.toList l.tokens := by
  have hmark : Text.OneLine ": ".toList := Text.OneLine.of_all (by decide)
  have hline := (Text.OneLine.name h.name).append (hmark.append
    ((Declaration.oneLine_text h.type).append l.metadata.oneLine_deprecation))
  have hopen := Sdl.open_line h.name Closed.nil.open (fun c hc => (by cases hc))
    (l.metadata.open_append (Declaration.open_expr h.type))
  have hrow := Sdl.Row.line hline (List.append_ne_nil_of_right_ne_nil _ (List.cons_ne_nil _ _))
    hopen
  have htext : (l.name ++ ": " ++ l.type.text).toList ++ l.metadata.deprecationText
      = l.name.toList ++ (": ".toList ++ (l.type.text.toList ++ l.metadata.deprecationText)) := by
    simp only [String.toList_append, List.append_assoc]
  rw [tokens_eq]
  refine Sdl.Row.applyMetadata ?_
  rw [htext]
  exact hrow

end SaidLine

/-- Whatever is said of a type and of its fields, a block is read as what
is said of the type, the head, and for each line what is said of the field,
the line and the reason, and nothing else. -/
theorem lex_described {keyword name : String} (hkeyword : isName keyword = true)
    (hname : isName name = true) (config : Value) (m : Option Model) {lines : List SaidLine}
    (hsome : lines ≠ []) (hlines : ∀ l ∈ lines, l.WellNamed) :
    Graphql.lex (Sdl.renderBlock keyword name
        (String.intercalate "\n" (lines.map SaidLine.text)) (Sdl.typeDescription config m))
      = ⟨Sdl.saidTokens (Sdl.saidOfType config m)
          ++ (.name keyword :: .name name :: .punct .braceL
            :: (lines.flatMap SaidLine.tokens ++ [.punct .braceR])), none⟩ := by
  have hbody := Sdl.Row.body hsome fun l hl => SaidLine.row (hlines l hl)
  have htext : (String.intercalate "\n" (lines.map SaidLine.text)).toList
      = ['\n'].intercalate (lines.map fun l => l.text.toList) := by
    rw [String.toList_intercalate, List.map_map]
    rfl
  rw [← htext] at hbody
  exact Graphql.lex_eq (Sdl.closed_renderBlock (Sdl.closed_typeDescription config m) hkeyword
    hname hbody.1 hbody.2).open.lexes

/-- A line of which something is said that looks like the end of its
description, its type and another type. -/
def quotingLine : SaidLine :=
  { name := "t", type := .nonNull (.of "Int"), description := "\"\"\"\n\x7d type X \x7b x: Int"
    reason := "gone\") \\" }

theorem lex_described_quoting :
    Graphql.lex (Sdl.renderBlock "type" "M"
        (String.intercalate "\n" ([quotingLine].map SaidLine.text))
        (Sdl.typeDescription (.map [("_description", .str "\"\"\"")]) none))
      = ⟨Sdl.saidTokens (Sdl.saidOfType (.map [("_description", .str "\"\"\"")]) none)
          ++ (.name "type" :: .name "M" :: .punct .braceL
            :: ([quotingLine].flatMap SaidLine.tokens ++ [.punct .braceR])), none⟩ :=
  lex_described rfl rfl _ none (by decide) (List.forall_mem_singleton.2 ⟨rfl, rfl, rfl⟩)

end ModelSchema
