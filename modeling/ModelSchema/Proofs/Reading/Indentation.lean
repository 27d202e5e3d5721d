/-
Rows of several lines. Between braces the lines of a row are indented, and
all of its line ends become line feeds. A token that stays on its line is
not touched by that, and a block string loses the blanks that its lines get
with its indentation, so a row is read as it is alone (`Row.of_spells`) if
every end of a line in it is one to a document, too.
-/
import ModelSchema.Proofs.Joining.Lexing
import ModelSchema.Proofs.Reading.Descriptions

namespace ModelSchema

open Graphql (Token Lexes Closed Stops Akin Spells InLine skipIgnored readToken readBlockString)

namespace Text

/-- A text with no line ends but those of documents. -/
def Narrow (cs : List Char) : Prop := ∀ c ∈ cs, isLineEnd c = true → c = '\n' ∨ c = '\r'

variable {cs cs' : List Char} {c : Char}

theorem Narrow.append (h : Narrow cs) (h' : Narrow cs') : Narrow (cs ++ cs') :=
  List.forall_mem_append.2 ⟨h, h'⟩

theorem Narrow.of_append (h : Narrow (cs ++ cs')) : Narrow cs ∧ Narrow cs' :=
  List.forall_mem_append.1 h

theorem Narrow.of_cons (h : Narrow (c :: cs)) :
    (isLineEnd c = true → c = '\n' ∨ c = '\r') ∧ Narrow cs := List.forall_mem_cons.1 h

theorem OneLine.narrow (h : OneLine cs) : Narrow cs := by
  intro c hc hend
  rw [h c hc] at hend
  cases hend

theorem oneLine_nil : OneLine [] := fun _ h => nomatch h

/-- What stays on its line in a document has no line end at all. -/
theorem Narrow.oneLine (h : Narrow cs) (hline : InLine cs) : OneLine cs := by
  intro c hc
  refine Bool.eq_false_iff.2 fun hend => ?_
  rcases h c hc hend with rfl | rfl
  · exact (hline _ hc).1 rfl
  · exact (hline _ hc).2 rfl

/-- A text that is not empty has a line. -/
theorem linesFrom_ne_nil {opened : List Char} (h : opened ≠ [] ∨ cs ≠ []) :
    linesFrom opened cs ≠ [] := by
  induction opened, cs using linesFrom.induct with
  | case1 opened hnone =>
      rcases h with h | h
      · exact absurd (List.isEmpty_iff.1 hnone) h
      · exact absurd rfl h
  | case2 opened hnone =>
      rw [linesFrom, if_neg hnone]
      exact List.cons_ne_nil _ _
  | case3 opened cs ih => exact List.cons_ne_nil _ _
  | case4 opened c cs hpair hend ih =>
      rw [linesFrom_end hend fun rest hc hcs => hpair rest hc hcs]
      exact List.cons_ne_nil _ _
  | case5 opened c cs hpair hend ih =>
      rw [linesFrom_char (Bool.eq_false_iff.2 hend)]
      exact ih (.inl (List.cons_ne_nil _ _))

end Text

-- ========================================================= within a line

namespace Sdl

/-- A text that is laid out, at the start of one of its lines: two blanks come
first, unless the line is empty. -/
def begun (cs laid : List Char) : List Char :=
  match cs with
  | [] => []
  | c :: _ => if Text.isLineEnd c then laid else ' ' :: ' ' :: laid

/-- The rest of a text as it stands between braces, from within one of its
lines. -/
def inside : List Char → List Char
  | [] => ['\n']
  | '\r' :: '\n' :: cs => '\n' :: begun cs (inside cs)
  | c :: cs => if Text.isLineEnd c then '\n' :: begun cs (inside cs) else c :: inside cs

variable {c : Char} {cs rest : List Char}

theorem inside_char (hc : Text.isLineEnd c = false) (cs : List Char) :
    inside (c :: cs) = c :: inside cs := by
  rw [inside]
  · rw [if_neg (by rw [hc]; exact Bool.false_ne_true)]
  · rintro _ rfl
    cases hc

theorem inside_end (hc : Text.isLineEnd c = true) (hpair : ∀ rest, c = '\r' → cs ≠ '\n' :: rest) :
    inside (c :: cs) = '\n' :: begun cs (inside cs) := by
  rw [inside]
  · rw [if_pos hc]
  · exact fun rest hreturn hcs => hpair rest hreturn hcs

/-- A line of its own stands as it is. -/
theorem inside_append (h : Text.OneLine cs) (rest : List Char) :
    inside (cs ++ rest) = cs ++ inside rest := by
  induction cs with
  | nil => rfl
  | cons c cs ih =>
      rw [List.cons_append, inside_char (h c List.mem_cons_self),
        ih fun d hd => h d (List.mem_cons_of_mem c hd), List.cons_append]

theorem begun_opened {opened : List Char} (h : Text.OneLine opened) (hsome : opened ≠ [])
    (cs laid : List Char) :
    begun (opened.reverse ++ cs) laid = ' ' :: ' ' :: laid := by
  cases hreverse : opened.reverse with
  | nil => exact absurd (List.reverse_eq_nil_iff.1 hreverse) hsome
  | cons d ds =>
      have hd : Text.isLineEnd d = false := h d (List.mem_reverse.1 (hreverse ▸ List.mem_cons_self))
      exact if_neg (by rw [hd]; exact Bool.false_ne_true)

/-- The line that is open is ended by the first end of a line. -/
theorem begun_indented {opened : List Char} (h : Text.OneLine opened) {c : Char}
    (hc : Text.isLineEnd c = true) (cs laid : List Char) :
    begun (opened.reverse ++ c :: cs) (opened.reverse ++ laid)
      = indented opened.reverse ++ laid := by
  by_cases hsome : opened = []
  · subst hsome
    exact if_pos hc
  · rw [begun_opened h hsome, indented, if_neg (mt List.reverse_eq_nil_iff.1 hsome)]
    rfl

/-- A text between braces, given the line that is open. -/
theorem laidOut_linesFrom {opened : List Char} (h : Text.OneLine opened) (cs : List Char) :
    laidOut (Text.linesFrom opened cs)
      = begun (opened.reverse ++ cs) (opened.reverse ++ inside cs) := by
  induction opened, cs using Text.linesFrom.induct with
  | case1 opened hnone =>
      rw [List.isEmpty_iff.1 hnone]
      rfl
  | case2 opened hnone =>
      have hsome : opened ≠ [] := mt List.isEmpty_iff.2 hnone
      rw [Text.linesFrom, if_neg hnone, laidOut_cons, begun_opened h hsome, indented,
        if_neg (mt List.reverse_eq_nil_iff.1 hsome)]
      rfl
  | case3 opened cs ih =>
      rw [Text.linesFrom, laidOut_cons, ih Text.oneLine_nil, begun_indented h rfl]
      rfl
  | case4 opened c cs hpair hend ih =>
      have hpair' : ∀ rest, c = '\r' → cs ≠ '\n' :: rest := fun rest hc hcs => hpair rest hc hcs
      rw [Text.linesFrom_end hend hpair', laidOut_cons, ih Text.oneLine_nil, inside_end hend hpair',
        begun_indented h hend]
      rfl
  | case5 opened c cs hpair hend ih =>
      have hc : Text.isLineEnd c = false := Bool.eq_false_iff.2 hend
      rw [Text.linesFrom_char hc, ih (List.forall_mem_cons.2 ⟨hc, h⟩), inside_char hc,
        List.reverse_cons, List.append_assoc, List.append_assoc]
      rfl

-- ================================================================ blanks

/-- What is left to read of a text that stands between braces before more,
when this is left of it alone. -/
def resume (more : List Char) : List Char → List Char
  | [] => skipIgnored false more
  | c :: rest => c :: (inside rest ++ more)

/-- The blanks that a line starts with are passed over. -/
theorem skipIgnored_begun (cs more : List Char) :
    skipIgnored false (begun cs (inside cs) ++ more) = skipIgnored false (inside cs ++ more) := by
  cases cs with
  | nil => rfl
  | cons c cs =>
      show skipIgnored false ((if Text.isLineEnd c then _ else _) ++ more) = _
      split
      · rfl
      · rfl

/-- The end of a line is passed over, and ends a comment. -/
theorem skipIgnored_end {inComment : Bool} (hc : c = '\n' ∨ c = '\r') (cs : List Char) :
    skipIgnored inComment (c :: cs) = skipIgnored false cs := by
  rw [skipIgnored, if_pos hc]

/-- Between tokens the same is passed over between braces. -/
theorem skipIgnored_inside (h : Text.Narrow cs) (inComment : Bool) (more : List Char) :
    skipIgnored inComment (inside cs ++ more) = resume more (skipIgnored inComment cs) := by
  induction cs using inside.induct generalizing inComment with
  | case1 => exact skipIgnored_end (.inl rfl) more
  | case2 cs ih =>
      rw [skipIgnored_end (.inr rfl), skipIgnored_end (.inl rfl), ← ih h.of_cons.2.of_cons.2]
      exact (skipIgnored_end (.inl rfl) _).trans (skipIgnored_begun cs more)
  | case3 c cs hpair hend ih =>
      have hpair' : ∀ rest, c = '\r' → cs ≠ '\n' :: rest := fun rest hc hcs => hpair rest hc hcs
      rw [skipIgnored_end (h.of_cons.1 hend), inside_end hend hpair', ← ih h.of_cons.2]
      exact (skipIgnored_end (.inl rfl) _).trans (skipIgnored_begun cs more)
  | case4 c cs hpair hend ih =>
      have hc : Text.isLineEnd c = false := Bool.eq_false_iff.2 hend
      rw [inside_char hc, List.cons_append, Graphql.skipIgnored_cons, Graphql.skipIgnored_cons]
      split
      · exact ih h.of_cons.2 _
      · rfl

-- ========================================================= block strings

/-- Quotes that follow between braces follow in the text. -/
theorem quotes_prefix_of_inside {n : Nat} {more : List Char}
    (h : Graphql.quotes n <+: inside cs ++ more) : Graphql.quotes n <+: cs := by
  have ended : ∀ {n laid}, Graphql.quotes (n + 1) <+: '\n' :: laid → False :=
    fun h => by cases (Graphql.quotes_prefix_cons.1 h).1
  induction cs using inside.induct generalizing n with
  | case1 =>
      cases n with
      | zero => exact List.nil_prefix
      | succ n => exact absurd h ended
  | case2 cs ih =>
      cases n with
      | zero => exact List.nil_prefix
      | succ n => exact absurd h ended
  | case3 c cs hpair hend ih =>
      rw [inside_end hend fun rest hc hcs => hpair rest hc hcs] at h
      cases n with
      | zero => exact List.nil_prefix
      | succ n => exact absurd h ended
  | case4 c cs hpair hend ih =>
      rw [inside_char (Bool.eq_false_iff.2 hend)] at h
      cases n with
      | zero => exact List.nil_prefix
      | succ n =>
          obtain ⟨hc, hrest⟩ := Graphql.quotes_prefix_cons.1 h
          exact Graphql.quotes_prefix_cons.2 ⟨hc, ih hrest⟩

/-- A text that closes a block string, from within one of its lines: the end
of this line, and the lines after it. -/
def Closes (cs rest first : List Char) (ls : List (List Char)) : Prop :=
  ∀ line before more, readBlockString line before (cs ++ more)
    = .ok (.blockString (Graphql.BlockString.value
        (before.reverse ++ (line.reverse ++ first) :: ls)), rest ++ more)

/-- A line of a block string gets its blanks, unless it is empty. -/
theorem Closes.begun {first : List Char} {ls : List (List Char)}
    (h : Closes (inside cs) rest first ls) (hsome : cs ≠ [])
    (hempty : ∀ c ∈ cs.head?, Text.isLineEnd c = true → first = []) :
    ∃ first', Padded first first' ∧
      Closes ('\n' :: Sdl.begun cs (inside cs)) rest [] (first' :: ls) := by
  have opened : ∀ line before more, readBlockString line before ('\n' :: more)
      = readBlockString [] (line.reverse :: before) more :=
    fun line before more => Graphql.readBlockString_lineFeed more
  have blank : ∀ line before more, readBlockString line before (' ' :: more)
      = readBlockString (' ' :: line) before more := fun line before more =>
    Graphql.readBlockString_cons (by decide)
      (fun hquotes => by cases (Graphql.quotes_prefix_cons.1 hquotes).1)
      fun hslash => by cases hslash
  cases cs with
  | nil => exact absurd rfl hsome
  | cons c cs =>
      cases hc : Text.isLineEnd c with
      | true =>
          refine ⟨first, .inr ⟨hempty c rfl hc, hempty c rfl hc⟩, fun line before more => ?_⟩
          rw [Sdl.begun, if_pos hc, List.cons_append, opened, h]
          simp
      | false =>
          refine ⟨' ' :: ' ' :: first, .inl rfl, fun line before more => ?_⟩
          rw [Sdl.begun, if_neg (by rw [hc]; exact Bool.false_ne_true), List.cons_append, opened,
            List.cons_append, blank, List.cons_append, blank, h]
          simp

/-- A block string closes between braces as it does alone, but for the blanks
of its lines. -/
theorem readBlockString_inside {line : List Char} {before : List (List Char)} {t : Token}
    (h : readBlockString line before cs = .ok (t, rest)) (hnarrow : Text.Narrow cs) :
    ∃ first ls ls', List.Forall₂ Padded ls ls'
      ∧ (∀ c ∈ cs.head?, Text.isLineEnd c = true → first = [])
      ∧ t = .blockString (Graphql.BlockString.value
          (before.reverse ++ (line.reverse ++ first) :: ls))
      ∧ Closes (inside cs) (inside rest) first ls' := by
  have nonempty : ∀ {line before cs}, readBlockString line before cs = .ok (t, rest) → cs ≠ [] := by
    rintro line before cs h rfl
    cases h
  induction line, before, cs using ModelSchema.Graphql.readBlockString.induct with
  | case1 line before => cases h
  | case2 line before cs =>
      cases h
      refine ⟨[], [], [], .nil, fun _ _ _ => rfl, by simp, fun line before more => ?_⟩
      show readBlockString line before (inside (Graphql.quotes 3 ++ rest) ++ more) = _
      rw [inside_append (Text.OneLine.of_all rfl)]
      simp [readBlockString, Graphql.quotes, List.replicate]
  | case3 line before cs ih =>
      obtain ⟨first, ls, ls', hpadded, -, rfl, hcloses⟩ :=
        ih h hnarrow.of_cons.2.of_cons.2.of_cons.2.of_cons.2
      refine ⟨Graphql.quotes 3 ++ first, ls, ls', hpadded, fun c hc hend => ?_,
        by simp [Graphql.quotes, List.replicate], fun line before more => ?_⟩
      · cases hc
        cases hend
      · show readBlockString line before (inside ('\\' :: Graphql.quotes 3 ++ cs) ++ more) = _
        rw [inside_append (Text.OneLine.of_all rfl), List.cons_append, List.cons_append,
          List.append_assoc, Graphql.readBlockString_escape, hcloses]
        simp
  | case4 line before cs ih =>
      obtain ⟨first, ls, ls', hpadded, hempty, rfl, hcloses⟩ := ih h hnarrow.of_cons.2.of_cons.2
      obtain ⟨first', hfirst, hcloses⟩ := hcloses.begun (nonempty h) hempty
      exact ⟨[], first :: ls, first' :: ls', .cons hfirst hpadded, fun _ _ _ => rfl, by simp,
        hcloses⟩
  | case5 line before c cs hclose hescape hpair hend ih =>
      rw [readBlockString, if_pos hend] at h
      · obtain ⟨first, ls, ls', hpadded, hempty, rfl, hcloses⟩ := ih h hnarrow.of_cons.2
        obtain ⟨first', hfirst, hcloses⟩ := hcloses.begun (nonempty h) hempty
        refine ⟨[], first :: ls, first' :: ls', .cons hfirst hpadded, fun _ _ _ => rfl, by simp, ?_⟩
        have hc : Text.isLineEnd c = true := by rcases hend with rfl | rfl <;> rfl
        rwa [inside_end hc fun rest hreturn hcs => hpair rest hreturn hcs]
      · exact hclose
      · exact hescape
      · exact hpair
  | case6 line before c cs hclose hescape hpair hend ih =>
      rw [readBlockString, if_neg hend] at h
      · have hc : Text.isLineEnd c = false :=
          Bool.eq_false_iff.2 fun hc => hend (hnarrow.of_cons.1 hc)
        obtain ⟨first, ls, ls', hpadded, -, rfl, hcloses⟩ := ih h hnarrow.of_cons.2
        refine ⟨c :: first, ls, ls', hpadded, fun d hd hline => ?_, by simp,
          fun line before more => ?_⟩
        · cases hd
          rw [hc] at hline
          cases hline
        · rw [inside_char hc, List.cons_append, Graphql.readBlockString_cons (not_or.1 hend),
            hcloses]
          · simp
          · intro hquotes
            obtain ⟨hq, hquotes⟩ := Graphql.quotes_prefix_cons.1 hquotes
            obtain ⟨tail, heq⟩ := quotes_prefix_of_inside hquotes
            exact hclose tail hq heq.symm
          · intro hslash hquotes
            obtain ⟨tail, heq⟩ := quotes_prefix_of_inside hquotes
            exact hescape tail hslash heq.symm
      · exact hclose
      · exact hescape
      · exact hpair

-- ================================================================ tokens

/-- A text goes on between braces as it does alone, or with the end of a
line. -/
theorem akin_inside (rest more : List Char) : Akin rest (inside rest ++ more) := by
  unfold inside
  split
  · exact .inr (Graphql.stops_cons rfl _)
  · exact .inr (Graphql.stops_cons rfl _)
  · split
    · exact .inr (Graphql.stops_cons rfl _)
    · exact .inl rfl

/-- A token is read between braces as it is alone. -/
theorem readToken_inside {t : Token} (h : readToken c cs = .ok (t, rest)) (hcs : Text.Narrow cs)
    (more : List Char) : readToken c (inside cs ++ more) = .ok (t, inside rest ++ more) := by
  rcases Graphql.readToken_local h with ⟨taken, rfl, hline, hagain⟩ | ⟨block, rfl, rfl, hblock⟩
  · obtain ⟨htaken, hrest⟩ := hcs.of_append
    rw [inside_append (htaken.oneLine hline), List.append_assoc]
    exact hagain _ (akin_inside rest more)
  · obtain ⟨first, ls, ls', hpadded, -, rfl, hcloses⟩ :=
      readBlockString_inside hblock hcs.of_cons.2.of_cons.2
    have hquotes : Text.OneLine ['"', '"'] := Text.OneLine.of_all rfl
    show readToken '"' (inside (['"', '"'] ++ block) ++ more) = _
    rw [inside_append hquotes]
    show readBlockString [] [] (inside block ++ more) = _
    rw [hcloses]
    simp [value_padded _ hpadded]

/-- A text is read between braces as it is alone, and an open comment ends
with its last line. -/
theorem lexes_inside {inComment : Bool} {ts ts' : List Token} {more : List Char}
    (h : Spells inComment cs ts) (hcs : Text.Narrow cs) (hmore : Lexes more ts') :
    Lexes (inside cs ++ more) (ts ++ ts') := by
  induction h with
  | nil hskip =>
      refine hmore.of_skip ?_ ?_
      · rw [skipIgnored_inside hcs, hskip]
        rfl
      · rw [List.length_append]
        exact Nat.le_add_left _ _
  | @cons _ c cs rest rest' t ts hskip hread _ ih =>
      have hrest : Text.Narrow (c :: rest) := by
        intro d hd
        exact hcs d ((Graphql.skipIgnored_suffix false cs).subset (hskip ▸ hd))
      have hrest' : Text.Narrow rest' := by
        obtain ⟨taken, rfl, -⟩ := Graphql.exists_taken hread
        exact hrest.of_cons.2.of_append.2
      refine (ih hrest').next ?_ (readToken_inside hread hrest.of_cons.2 more)
      rw [skipIgnored_inside hcs, hskip]
      rfl

-- ================================================================== rows

theorem length_inside_le_begun (hsome : cs ≠ []) :
    (inside cs).length ≤ (begun cs (inside cs)).length := by
  cases cs with
  | nil => exact absurd rfl hsome
  | cons c cs =>
      show _ ≤ (if Text.isLineEnd c then _ else _ : List Char).length
      split
      · exact Nat.le_refl _
      · exact Nat.le_add_right _ 2

/-- A text whose tokens are known is read as these between braces. -/
theorem closed_laidOut {inComment : Bool} {ts : List Token} (h : Spells inComment cs ts)
    (hcs : Text.Narrow cs) (hsome : cs ≠ []) : Closed (laidOut (Text.linesFrom [] cs)) ts := by
  intro more ts' hmore
  have hlines : laidOut (Text.linesFrom [] cs) = begun cs (inside cs) :=
    laidOut_linesFrom Text.oneLine_nil cs
  rw [hlines]
  refine (lexes_inside h hcs hmore).of_skip (skipIgnored_begun cs more) ?_
  rw [List.length_append, List.length_append]
  exact Nat.add_le_add_right (length_inside_le_begun hsome) _

/-- A text whose tokens are known is a row of them. -/
theorem Row.of_spells {inComment : Bool} {ts : List Token} (h : Spells inComment cs ts)
    (hcs : Text.Narrow cs) (hsome : cs ≠ []) : Row cs ts where
  ended :=
    closed_laidOut h.ended (hcs.append fun _ hc _ => .inl (List.mem_singleton.1 hc))
      (List.append_ne_nil_of_left_ne_nil hsome _)
  last := closed_laidOut h hcs hsome
  some := Text.linesFrom_ne_nil (.inr hsome)

end Sdl

end ModelSchema
