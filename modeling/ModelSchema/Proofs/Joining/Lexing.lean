/-
Two texts put one after the other, with a blank between them. A blank ends
every token, so what is taken from the first text is what is taken from it
alone (`readToken_append`). What the blank does not end is a comment: if the
first text ends within one, the comment goes on up to the first line end of
the second. So the tokens of both are the tokens of one after those of the
other unless such a comment covers a token (`Spells.append`), and the second
text is lost altogether if it is a single line (`Spells.append_swallowed`).
-/
import ModelSchema.Proofs.Reading.Tokens

namespace ModelSchema.Graphql

-- ================================================================ tokens

/-- A token that a text can give: a name is spelled as names are, and none
stands for the end of the text. -/
def Token.Spelled : Token → Prop
  | .name s => isName s = true
  | .eof => False
  | _ => True

section

variable {cs rest : List Char} {t : Token}

theorem readString_spelled {acc : List Char} {passing : Nat}
    (h : readString acc passing cs = .ok (t, rest)) : t.Spelled := by
  fun_induction readString acc passing cs with
  | case1 | case4 | case6 => cases h
  | case2 _ _ _ _ ih => exact ih h
  | case3 =>
      cases h
      trivial
  | case5 _ _ _ _ _ _ _ ih => exact ih h
  | case7 _ _ _ _ _ _ ih => exact ih h

theorem readBlockString_spelled {line : List Char} {before : List (List Char)}
    (h : readBlockString line before cs = .ok (t, rest)) : t.Spelled := by
  fun_induction readBlockString line before cs with
  | case1 => cases h
  | case2 =>
      cases h
      trivial
  | case3 _ _ _ ih => exact ih h
  | case4 _ _ _ ih => exact ih h
  | case5 _ _ _ _ _ _ _ _ ih => exact ih h
  | case6 _ _ _ _ _ _ _ _ ih => exact ih h

theorem readNumber_spelled (h : readNumber cs = .ok (t, rest)) : t.Spelled := by
  have ending : ∀ {sign whole fraction exponent cs},
      endNumber sign whole fraction exponent cs = .ok (t, rest) → t.Spelled := by
    intro sign whole fraction exponent cs h
    unfold endNumber at h
    split at h
    · cases h
    · cases h
      split
      · trivial
      · trivial
  obtain ⟨whole, _, h⟩ := bind_eq_ok.1 h
  obtain ⟨fraction, _, h⟩ := bind_eq_ok.1 h
  obtain ⟨exponent, _, h⟩ := bind_eq_ok.1 h
  exact ending h

/-- What starts as a name does and goes on with parts of names is one. -/
theorem isName_takeWhile {c : Char} (h : isNameStart c = true) (cs : List Char) :
    isName (String.ofList (c :: cs.takeWhile isNamePart)) = true :=
  isName_iff.2 ⟨c, _, String.toList_ofList, h, List.all_eq_true.1 List.all_takeWhile⟩

theorem readToken_spelled {c : Char} (h : readToken c cs = .ok (t, rest)) : t.Spelled := by
  unfold readToken at h
  split at h
  · cases h
    trivial
  split at h
  · split at h
    · exact readBlockString_spelled h
    · exact readString_spelled h
  split at h
  · exact readNumber_spelled h
  split at h
  · next hstart =>
    cases h
    exact isName_takeWhile hstart cs
  split at h
  · split at h
    · cases h
      trivial
    · cases h
  split at h
  · cases h
  · cases h

end

-- ============================================================== comments

/-- Whether a comment is open after a character, given whether one is open
before it and nothing but comments and blanks is there. -/
def goesOn (inComment : Bool) (c : Char) : Bool :=
  !(c = '\n' ∨ c = '\r') && (inComment || c = '#')

/-- Whether a character is passed over between tokens. -/
def isPassed (inComment : Bool) (c : Char) : Bool :=
  inComment || ['\n', '\r', ' ', '\t', ',', '\ufeff', '#'].contains c

theorem skipIgnored_cons (inComment : Bool) (c : Char) (cs : List Char) :
    skipIgnored inComment (c :: cs)
      = if isPassed inComment c then skipIgnored (goesOn inComment c) cs else c :: cs := by
  rw [skipIgnored]
  by_cases hline : c = '\n' ∨ c = '\r'
  · rcases hline with rfl | rfl
    · simp [isPassed, goesOn]
    · simp [isPassed, goesOn]
  · have hnot := not_or.1 hline
    by_cases hcomment : c = '#'
    · subst hcomment
      simp [isPassed, goesOn]
    · cases inComment with
      | true => simp [isPassed, goesOn, hnot]
      | false => simp [isPassed, goesOn, hnot, hcomment]

variable {inComment inComment' : Bool} {c : Char} {cs cs' rest : List Char} {t : Token}
  {ts ts' : List Token}

theorem skipIgnored_suffix (inComment : Bool) (cs : List Char) :
    skipIgnored inComment cs <:+ cs := by
  induction cs generalizing inComment with
  | nil => exact List.suffix_rfl
  | cons c cs ih =>
      rw [skipIgnored_cons]
      split
      · exact (ih _).trans (List.suffix_cons c cs)
      · exact List.suffix_rfl

/-- Where a text has nothing left to read, what follows it is read on with the
comment that is open there. -/
theorem skipIgnored_append_of_nil (h : skipIgnored inComment cs = []) (more : List Char) :
    skipIgnored inComment (cs ++ more) = skipIgnored (cs.foldl goesOn inComment) more := by
  induction cs generalizing inComment with
  | nil => rfl
  | cons c cs ih =>
      rw [skipIgnored_cons] at h
      split at h
      · next hpassed =>
        rw [List.cons_append, skipIgnored_cons, if_pos hpassed, ih h, List.foldl_cons]
      · cases h

theorem skipIgnored_append_of_cons (h : skipIgnored inComment cs = c :: rest) (more : List Char) :
    skipIgnored inComment (cs ++ more) = c :: (rest ++ more) := by
  induction cs generalizing inComment with
  | nil => cases h
  | cons d cs ih =>
      rw [skipIgnored_cons] at h
      split at h
      · next hpassed => rw [List.cons_append, skipIgnored_cons, if_pos hpassed, ih h]
      · next hpassed =>
        cases h
        rw [List.cons_append, skipIgnored_cons, if_neg hpassed]

/-- A comment covers the rest of its line. -/
theorem skipIgnored_line (h : ∀ c ∈ cs, c ≠ '\n' ∧ c ≠ '\r') :
    skipIgnored true cs = [] ∧ cs.foldl goesOn true = true := by
  induction cs with
  | nil => exact ⟨rfl, rfl⟩
  | cons c cs ih =>
      have hc := h c List.mem_cons_self
      have hgoes : goesOn true c = true := by simp [goesOn, hc]
      rw [skipIgnored_cons, List.foldl_cons, hgoes]
      exact ih fun d hd => h d (List.mem_cons_of_mem c hd)

-- ================================================================= texts

/-- A text is read as what is left of it when it is passed over. -/
theorem Lexes.of_skip (hskip : skipIgnored false cs = skipIgnored false cs')
    (hlength : cs'.length ≤ cs.length) (h : Lexes cs' ts) : Lexes cs ts := by
  intro fuel hfuel
  have hread := h fuel (Nat.lt_of_le_of_lt hlength hfuel)
  cases fuel with
  | zero => cases hfuel
  | succ fuel =>
      rw [lexWith] at hread ⊢
      rw [hskip, hread]

/-- The next token is put before those that follow. -/
theorem Lexes.next (hskip : skipIgnored false cs = c :: rest)
    (hread : readToken c rest = .ok (t, cs')) (h : Lexes cs' ts) : Lexes cs (t :: ts) := by
  intro fuel hfuel
  have hlength := (skipIgnored_suffix false cs).length_le
  have hrest := readToken_length_le hread
  rw [hskip, List.length_cons] at hlength
  cases fuel with
  | zero => cases hfuel
  | succ fuel =>
      have htail := h fuel (by omega)
      rw [lexWith, hskip]
      simp only [hread, htail]
      rfl

/-- A text that is read as these tokens up to its end, which lies within a
comment or not. -/
inductive Spells : Bool → List Char → List Token → Prop
  | nil {cs : List Char} (hskip : skipIgnored false cs = []) : Spells (cs.foldl goesOn false) cs []
  | cons {inComment : Bool} {c : Char} {cs rest rest' : List Char} {t : Token} {ts : List Token}
      (hskip : skipIgnored false cs = c :: rest) (hread : readToken c rest = .ok (t, rest'))
      (htail : Spells inComment rest' ts) : Spells inComment cs (t :: ts)

namespace Spells

theorem lexes (h : Spells inComment cs ts) : Lexes cs ts := by
  induction h with
  | nil hskip =>
      have hnone : skipIgnored false _ = skipIgnored false [] := hskip
      exact Lexes.nil.of_skip hnone (Nat.zero_le _)
  | cons hskip hread _ ih => exact ih.next hskip hread

/-- A name alone. -/
theorem name {s : String} (h : isName s = true) : Spells false s.toList [.name s] := by
  obtain ⟨c, cs, hs, _, _⟩ := isName_iff.1 h
  obtain ⟨hread, hskip⟩ := readToken_name h hs stops_nil
  rw [List.append_nil] at hread hskip
  have hend : Spells ([].foldl goesOn false) [] [] := nil rfl
  rw [hs]
  exact cons hskip hread hend

/-- A line feed at the start says nothing. -/
theorem lineFeed_inv (h : Spells inComment ('\n' :: cs) ts) : Spells inComment cs ts := by
  generalize hall : '\n' :: cs = all at h
  cases h with
  | nil hskip =>
      subst hall
      have hline : Spells (cs.foldl goesOn false) cs [] := nil hskip
      exact hline
  | cons hskip hread htail =>
      subst hall
      exact cons hskip hread htail

theorem exists_skip (h : Spells inComment cs (t :: ts)) :
    ∃ c rest, skipIgnored false cs = c :: rest := by
  cases h with
  | cons hskip _ _ => exact ⟨_, _, hskip⟩

/-- Whether a text ends within a comment is settled by the text. -/
theorem inComment_unique (h : Spells inComment cs ts) (h' : Spells inComment' cs ts') :
    inComment = inComment' := by
  induction h generalizing inComment' ts' with
  | nil hskip =>
      cases h' with
      | nil => rfl
      | cons hskip' =>
          rw [hskip] at hskip'
          cases hskip'
  | cons hskip hread _ ih =>
      cases h' with
      | nil hskip' =>
          rw [hskip] at hskip'
          cases hskip'
      | cons hskip' hread' htail' =>
          rw [hskip] at hskip'
          cases hskip'
          rw [hread] at hread'
          cases hread'
          exact ih htail'

/-- Two texts are read one after the other if what stands between them ends a
token, and nothing is lost of the second one in a comment at the end of the
first. -/
theorem append_after {sep : List Char} (h : Spells inComment cs ts)
    (h' : Spells inComment' cs' (t :: ts')) (hstops : Stops (sep ++ cs'))
    (hseam : skipIgnored inComment (sep ++ cs') = skipIgnored false cs') :
    Spells inComment' (cs ++ (sep ++ cs')) (ts ++ t :: ts') := by
  induction h with
  | nil hskip =>
      cases h' with
      | cons hskip' hread htail =>
          refine cons ?_ hread htail
          rw [skipIgnored_append_of_nil hskip]
          exact hseam.trans hskip'
  | cons hskip hread _ ih =>
      exact cons (skipIgnored_append_of_cons hskip _) (readToken_append hread hstops) (ih hseam)

/-- Two texts with a blank between them are read one after the other, unless a
comment at the end of the first covers more of the second than is passed over
anyway. -/
theorem append (h : Spells inComment cs ts) (h' : Spells inComment' cs' (t :: ts'))
    (hseam : inComment = true → skipIgnored true cs' = skipIgnored false cs') :
    Spells inComment' (cs ++ ' ' :: cs') (ts ++ t :: ts') := by
  have hblank : skipIgnored inComment ([' '] ++ cs') = skipIgnored inComment cs' := by
    rw [List.singleton_append, skipIgnored_cons]
    cases inComment <;> rfl
  refine h.append_after h' (stops_cons rfl _) (hblank.trans ?_)
  cases inComment with
  | false => rfl
  | true => exact hseam rfl

/-- Two texts with an empty line between them are read one after the other. -/
theorem append_line (h : Spells inComment cs ts) (h' : Spells inComment' cs' (t :: ts')) :
    Spells inComment' (cs ++ '\n' :: '\n' :: cs') (ts ++ t :: ts') := by
  have hstops : Stops (['\n', '\n'] ++ cs') := stops_cons rfl _
  exact h.append_after h' hstops rfl

/-- A line feed ends a comment that is open, and else changes nothing. -/
theorem ended (h : Spells inComment cs ts) : Spells false (cs ++ ['\n']) ts := by
  induction h with
  | @nil cs hskip =>
      have hnone : skipIgnored false (cs ++ ['\n']) = [] := skipIgnored_append_of_nil hskip _
      have hall := Spells.nil hnone
      rw [List.foldl_append] at hall
      exact hall
  | cons hskip hread _ ih =>
      exact cons (skipIgnored_append_of_cons hskip _) (readToken_append hread (stops_cons rfl _)) ih

/-- What a text says that goes on after a closed one, it says after it. -/
theorem append_inv {more : List Char} (h : Spells false cs ts) (hmore : Stops more)
    (h' : Spells inComment (cs ++ more) ts') : ∃ rest, ts' = ts ++ rest ∧ Spells inComment more rest := by
  generalize hfalse : false = closed at h
  induction h generalizing ts' with
  | @nil cs hskip =>
      have hsame : skipIgnored false (cs ++ more) = skipIgnored false more := by
        rw [skipIgnored_append_of_nil hskip, ← hfalse]
      refine ⟨ts', rfl, ?_⟩
      generalize hall : cs ++ more = all at h' hsame
      cases h' with
      | nil hnone =>
          rw [← hall, List.foldl_append, ← hfalse]
          exact .nil (hsame ▸ hnone)
      | cons hsome hread htail => exact .cons (hsame ▸ hsome) hread htail
  | cons hskip hread _ ih =>
      have hagain := skipIgnored_append_of_cons hskip more
      have htoken := readToken_append hread hmore
      cases h' with
      | nil hnone =>
          rw [hagain] at hnone
          cases hnone
      | cons hsome hread' htail =>
          rw [hagain] at hsome
          cases hsome
          rw [htoken] at hread'
          cases hread'
          obtain ⟨rest, rfl, hrest⟩ := ih htail hfalse
          exact ⟨rest, rfl, hrest⟩

/-- A text of a single line is lost after an open comment. -/
theorem append_swallowed (h : Spells true cs ts) (hline : ∀ c ∈ cs', c ≠ '\n' ∧ c ≠ '\r') :
    Spells true (cs ++ ' ' :: cs') ts := by
  generalize htrue : true = inComment at h
  induction h with
  | @nil cs hskip =>
      obtain ⟨hnil, hopen⟩ := skipIgnored_line hline
      have hnone : skipIgnored false (cs ++ ' ' :: cs') = [] := by
        rw [skipIgnored_append_of_nil hskip, ← htrue]
        exact hnil
      have hall := Spells.nil hnone
      rw [List.foldl_append, ← htrue, List.foldl_cons] at hall
      exact htrue ▸ hopen ▸ hall
  | cons hskip hread _ ih =>
      exact cons (skipIgnored_append_of_cons hskip _) (readToken_append hread (stops_cons rfl _))
        (ih htrue)

end Spells

/-- A text that leaves no comment open is a piece of a text. -/
theorem Spells.open (h : Spells false cs ts) : Open cs ts := by
  intro more tail hstops hmore
  generalize hfalse : false = inComment at h
  induction h with
  | @nil cs hskip =>
      refine hmore.of_skip ?_ ?_
      · rw [skipIgnored_append_of_nil hskip, ← hfalse]
      · rw [List.length_append]
        exact Nat.le_add_left _ _
  | cons hskip hread _ ih =>
      exact (ih hfalse).next (skipIgnored_append_of_cons hskip _) (readToken_append hread hstops)

theorem spelled_of_lexWith (fuel : Nat) (cs : List Char) :
    ∀ t ∈ (lexWith fuel cs).tokens, t.Spelled := by
  induction fuel generalizing cs with
  | zero => exact List.forall_mem_nil _
  | succ fuel ih =>
      unfold lexWith
      split
      · exact List.forall_mem_nil _
      · split
        · next hread => exact List.forall_mem_cons.2 ⟨readToken_spelled hread, ih _⟩
        · exact List.forall_mem_nil _

/-- Whether a text ends within a comment, if it is read up to its end. -/
def endsInComment : (fuel : Nat) → List Char → Bool
  | 0, _ => false
  | fuel + 1, cs =>
      match skipIgnored false cs with
      | [] => cs.foldl goesOn false
      | c :: rest =>
          match readToken c rest with
          | .ok (_, rest) => endsInComment fuel rest
          | .error _ => false

/-- Whether a text leaves a comment open. -/
def leavesComment (s : String) : Bool := endsInComment (s.toList.length + 1) s.toList

theorem spells_of_lexWith {fuel : Nat} (hfuel : cs.length < fuel)
    (h : lexWith fuel cs = ⟨ts, none⟩) : Spells (endsInComment fuel cs) cs ts := by
  induction fuel generalizing cs ts with
  | zero => cases hfuel
  | succ fuel ih =>
      unfold lexWith at h
      unfold endsInComment
      have hlength := (skipIgnored_suffix false cs).length_le
      cases hskip : skipIgnored false cs with
      | nil =>
          rw [hskip] at h
          cases h
          exact .nil hskip
      | cons c rest =>
          rw [hskip] at h hlength
          cases hread : readToken c rest with
          | error e =>
              simp only [hread] at h
              cases h
          | ok r =>
              obtain ⟨t, rest'⟩ := r
              have hrest := readToken_length_le hread
              simp only [hread] at h ⊢
              cases hlexed : lexWith fuel rest' with
              | mk ts' fault =>
                  rw [hlexed] at h
                  cases h
                  rw [List.length_cons] at hlength
                  exact .cons hskip hread (ih (by omega) hlexed)

theorem Lexes.spells (h : Lexes cs ts) : Spells (endsInComment (cs.length + 1) cs) cs ts :=
  spells_of_lexWith (Nat.lt_succ_self _) (h _ (Nat.lt_succ_self _))

/-- A text whose tokens are known is read as these up to its end. -/
theorem spells_of_lex {s : String} (h : lex s = ⟨ts, none⟩) :
    Spells (leavesComment s) s.toList ts := spells_of_lexWith (Nat.lt_succ_self _) h

end ModelSchema.Graphql
