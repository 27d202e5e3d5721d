/-
Texts and their tokens, piece by piece. A piece of a text is closed if it
is read as the same tokens whatever follows, as a mark, a blank or a string
is; it is open if its last token may go on after it, so that what follows has
to stop that. Pieces that are put together are read as the tokens of one
after the tokens of the other.
-/
import ModelSchema.Graphql.Lexer
import ModelSchema.Proofs.Names.Derived

namespace ModelSchema.Graphql

-- ============================================================ whole texts

/-- A text is read as these tokens, up to its end. -/
def Lexes (cs : List Char) (ts : List Token) : Prop :=
  ∀ fuel, cs.length < fuel → lexWith fuel cs = ⟨ts, none⟩

theorem lex_eq {s : String} {ts : List Token} (h : Lexes s.toList ts) : lex s = ⟨ts, none⟩ :=
  h _ (Nat.lt_succ_self _)

namespace Lexes

variable {c : Char} {cs rest : List Char} {t : Token} {ts : List Token}

theorem nil : Lexes [] [] := by
  intro fuel hfuel
  cases fuel with
  | zero => cases hfuel
  | succ fuel => rfl

/-- What stands between tokens is passed over. -/
theorem skip (hc : skipIgnored false (c :: cs) = skipIgnored false cs) (h : Lexes cs ts) :
    Lexes (c :: cs) ts := by
  intro fuel hfuel
  cases fuel with
  | zero => cases hfuel
  | succ fuel =>
      have := h (fuel + 1) (by simp only [List.length_cons] at hfuel; omega)
      rw [lexWith] at this ⊢
      rw [hc, this]

/-- A token is put before those that follow. -/
theorem token (hc : skipIgnored false (c :: cs) = c :: cs)
    (hread : readToken c cs = .ok (t, rest)) (hlength : rest.length ≤ cs.length)
    (h : Lexes rest ts) : Lexes (c :: cs) (t :: ts) := by
  intro fuel hfuel
  cases fuel with
  | zero => cases hfuel
  | succ fuel =>
      have htail := h fuel (by simp only [List.length_cons] at hfuel; omega)
      rw [lexWith, hc]
      simp only [hread, htail]
      rfl

end Lexes

-- ================================================================= pieces

/-- A piece that is read as these tokens, whatever follows. -/
def Closed (cs : List Char) (ts : List Token) : Prop :=
  ∀ rest ts', Lexes rest ts' → Lexes (cs ++ rest) (ts ++ ts')

/-- Whether a character is a mark, or stands between tokens outside of
comments. -/
def isLoose (c : Char) : Bool :=
  c == ' ' || c == '\n' || c == ',' || (Punct.ofChar? c).isSome

/-- A text with which no token goes on. -/
def Stops (cs : List Char) : Prop := ∀ c ∈ cs.head?, isLoose c = true

/-- A piece that is read as these tokens, unless a token goes on after
it. -/
def Open (cs : List Char) (ts : List Token) : Prop :=
  ∀ rest ts', Stops rest → Lexes rest ts' → Lexes (cs ++ rest) (ts ++ ts')

theorem stops_nil : Stops [] := fun _ h => (by cases h)

theorem stops_cons {c : Char} (h : isLoose c = true) (cs : List Char) : Stops (c :: cs) :=
  fun _ hd => Option.some.inj hd ▸ h

theorem stops_append {cs : List Char} (h : Stops cs) (hsome : cs ≠ []) (rest : List Char) :
    Stops (cs ++ rest) := by
  cases cs with
  | nil => exact absurd rfl hsome
  | cons c cs => exact stops_cons (h c rfl) _

/-- The blank, the line feed, the comma and the marks. -/
def looseChars : List Char :=
  [' ', '\n', ',', '!', '$', '&', '(', ')', ':', '=', '@', '[', ']', '\x7b', '|', '\x7d']

theorem mem_looseChars {c : Char} (h : isLoose c = true) : c ∈ looseChars := by
  unfold isLoose at h
  simp only [Bool.or_eq_true, beq_iff_eq] at h
  rcases h with ((rfl | rfl) | rfl) | h
  · decide
  · decide
  · decide
  · obtain ⟨p, hp⟩ := Option.isSome_iff_exists.1 h
    unfold Punct.ofChar? at hp
    split at hp
    case h_14 => cases hp
    all_goals decide

section

variable {cs cs' : List Char} {ts ts' : List Token}

theorem Closed.nil : Closed [] [] := fun _ _ h => h

theorem Closed.append (h : Closed cs ts) (h' : Closed cs' ts') :
    Closed (cs ++ cs') (ts ++ ts') := by
  intro rest tail hrest
  rw [List.append_assoc, List.append_assoc]
  exact h _ _ (h' _ _ hrest)

theorem Closed.open (h : Closed cs ts) : Open cs ts := fun rest tail _ => h rest tail

theorem Closed.append_open (h : Closed cs ts) (h' : Open cs' ts') :
    Open (cs ++ cs') (ts ++ ts') := by
  intro rest tail hstops hrest
  rw [List.append_assoc, List.append_assoc]
  exact h _ _ (h' _ _ hstops hrest)

/-- An open piece is followed by one that stops its last token. -/
theorem Open.append (h : Open cs ts) (h' : Open cs' ts') (hstops : Stops cs') (hsome : cs' ≠ []) :
    Open (cs ++ cs') (ts ++ ts') := by
  intro rest tail hrest hlexes
  rw [List.append_assoc, List.append_assoc]
  exact h _ _ (stops_append hstops hsome rest) (h' _ _ hrest hlexes)

theorem Open.append_closed (h : Open cs ts) (h' : Closed cs' ts') (hstops : Stops cs')
    (hsome : cs' ≠ []) : Closed (cs ++ cs') (ts ++ ts') := by
  intro rest tail hrest
  rw [List.append_assoc, List.append_assoc]
  exact h _ _ (stops_append hstops hsome rest) (h' _ _ hrest)

/-- A piece at the end of a text. -/
theorem Open.lexes (h : Open cs ts) : Lexes cs ts := by
  have hnil := h [] [] stops_nil Lexes.nil
  rw [List.append_nil, List.append_nil] at hnil
  exact hnil

/-- Open pieces with a piece between them that is read as one token or
none. -/
theorem Open.intercalate {α : Type} {sep : List Char} {between : List Token}
    (hsep : Closed sep between) (hstops : Stops sep) (hsome : sep ≠ []) (text : α → List Char)
    (tokens : α → List Token) {as : List α} (h : ∀ a ∈ as, Open (text a) (tokens a)) :
    Open (sep.intercalate (as.map text)) (between.intercalate (as.map tokens)) := by
  induction as with
  | nil => exact Closed.nil.open
  | cons a as ih =>
      have hhead := h a List.mem_cons_self
      have htail := ih fun b hb => h b (List.mem_cons_of_mem a hb)
      cases as with
      | nil => simpa using hhead
      | cons b as =>
          simp only [List.map_cons, List.intercalate_cons_cons] at htail ⊢
          rw [List.append_assoc, List.append_assoc]
          exact hhead.append (hsep.append_open htail) (stops_append hstops hsome _)
            (List.append_ne_nil_of_left_ne_nil hsome _)

end

-- ======================================================== blanks and marks

/-- The token that a loose character is. -/
def markOf? (c : Char) : Option Token := (Punct.ofChar? c).map .punct

theorem Closed.loose {c : Char} (h : isLoose c = true) : Closed [c] (markOf? c).toList := by
  intro rest ts hrest
  have blank : ∀ d, skipIgnored false (d :: rest) = skipIgnored false rest →
      markOf? d = none → Lexes ([d] ++ rest) ((markOf? d).toList ++ ts) := by
    intro d hskip hnone
    rw [hnone]
    exact Lexes.skip hskip hrest
  have mark : ∀ d p, readToken d rest = .ok (.punct p, rest) → markOf? d = some (.punct p) →
      skipIgnored false (d :: rest) = d :: rest →
      Lexes ([d] ++ rest) ((markOf? d).toList ++ ts) := by
    intro d p hread hmark hskip
    rw [hmark]
    exact Lexes.token hskip hread (Nat.le_refl _) hrest
  unfold isLoose at h
  simp only [Bool.or_eq_true, beq_iff_eq] at h
  rcases h with ((rfl | rfl) | rfl) | h
  · exact blank _ rfl rfl
  · exact blank _ rfl rfl
  · exact blank _ rfl rfl
  · obtain ⟨p, hp⟩ := Option.isSome_iff_exists.1 h
    unfold Punct.ofChar? at hp
    split at hp
    case h_14 => cases hp
    all_goals exact mark _ _ rfl rfl rfl

/-- Marks with blanks between them are closed. -/
theorem Closed.marks {cs : List Char} (h : cs.all isLoose = true) :
    Closed cs (cs.filterMap markOf?) := by
  induction cs with
  | nil => exact Closed.nil
  | cons c cs ih =>
      rw [List.all_cons, Bool.and_eq_true] at h
      have hpiece := (Closed.loose h.1).append (ih h.2)
      rw [List.filterMap_cons]
      cases hmark : markOf? c with
      | none =>
          rw [hmark] at hpiece
          exact hpiece
      | some t =>
          rw [hmark] at hpiece
          exact hpiece

-- ================================================================== names

/-- What holds of the first 128 characters holds of one that may stand in a
name. -/
theorem forall_isNamePart {P : Char → Prop} (h : ∀ n : Fin 128, P (Char.ofNat n)) {c : Char}
    (hc : isNamePart c = true) : P c := by
  unfold isNamePart at hc
  rw [Bool.or_eq_true, beq_iff_eq] at hc
  rcases hc with hc | rfl
  · exact Naming.forall_isAlphanum h hc
  · exact h 95

theorem isNamePart_of_isNameStart {c : Char} (h : isNameStart c = true) : isNamePart c = true := by
  unfold isNameStart at h
  unfold isNamePart Char.isAlphanum
  rw [Bool.or_eq_true] at h ⊢
  rcases h with h | h
  · exact Or.inl (by rw [h, Bool.true_or])
  · exact Or.inr h

theorem isName_iff {s : String} :
    isName s = true ↔ ∃ c rest, s.toList = c :: rest ∧ isNameStart c = true
      ∧ ∀ d ∈ rest, isNamePart d = true := by
  unfold isName
  cases s.toList with
  | nil => simp
  | cons c rest => simp [and_assoc]

/-- A character that starts a name starts no other token, and is not passed
over. -/
theorem readToken_nameStart {c : Char} (h : isNameStart c = true) (cs : List Char) :
    readToken c cs
        = .ok (.name (String.ofList (c :: cs.takeWhile isNamePart)), cs.dropWhile isNamePart)
      ∧ skipIgnored false (c :: cs) = c :: cs := by
  have apart : Punct.ofChar? c = none ∧ c ∉ ['"', '-', '\n', '\r', ' ', '\t', ',', '\ufeff', '#']
      ∧ c.isDigit = false :=
    forall_isNamePart (P := fun c => isNameStart c = true → Punct.ofChar? c = none
      ∧ c ∉ ['"', '-', '\n', '\r', ' ', '\t', ',', '\ufeff', '#'] ∧ c.isDigit = false)
      (by decide) (isNamePart_of_isNameStart h) h
  obtain ⟨hpunct, hmem, hdigit⟩ := apart
  simp only [List.mem_cons, List.not_mem_nil, or_false, not_or] at hmem
  refine ⟨?_, ?_⟩
  · simp [readToken, hpunct, hmem, hdigit, h]
  · simp [skipIgnored, hmem]

/-- No name goes on with a loose character. -/
theorem isNamePart_of_isLoose {c : Char} (h : isLoose c = true) : isNamePart c = false := by
  have hall : looseChars.all (fun c => !isNamePart c) = true := rfl
  simpa using List.all_eq_true.1 hall c (mem_looseChars h)

/-- A name is the token that it starts with, if it does not go on. -/
theorem readToken_name {s : String} {c : Char} {cs rest : List Char} (h : isName s = true)
    (hs : s.toList = c :: cs) (hstops : Stops rest) :
    readToken c (cs ++ rest) = .ok (.name s, rest)
      ∧ skipIgnored false (c :: (cs ++ rest)) = c :: (cs ++ rest) := by
  obtain ⟨_, _, hchars, hstart, hparts⟩ := isName_iff.1 h
  rw [hs] at hchars
  cases hchars
  have hnone : ∀ d ∈ rest.head?, ¬ isNamePart d = true := by
    intro d hd
    cases rest with
    | nil => cases hd
    | cons e rest =>
        cases hd
        rw [isNamePart_of_isLoose (hstops d rfl)]
        exact Bool.false_ne_true
  have htake : (cs ++ rest).takeWhile isNamePart = cs := by
    rw [List.takeWhile_append_of_pos hparts]
    cases rest with
    | nil => rw [List.takeWhile_nil, List.append_nil]
    | cons d rest => rw [List.takeWhile_cons_of_neg (hnone d rfl), List.append_nil]
  have hdrop : (cs ++ rest).dropWhile isNamePart = rest := by
    rw [List.dropWhile_append_of_pos hparts]
    cases rest with
    | nil => rfl
    | cons d rest => rw [List.dropWhile_cons_of_neg (hnone d rfl)]
  obtain ⟨hread, hskip⟩ := readToken_nameStart hstart (cs ++ rest)
  rw [htake, hdrop, ← hs, String.ofList_toList] at hread
  exact ⟨hread, hskip⟩

/-- A name is read as itself, unless it goes on. -/
theorem Open.name {s : String} (h : isName s = true) : Open s.toList [.name s] := by
  obtain ⟨c, cs, hs, _, _⟩ := isName_iff.1 h
  intro rest ts hstops hrest
  obtain ⟨hread, hskip⟩ := readToken_name h hs hstops
  rw [hs]
  exact Lexes.token hskip hread (by simp) hrest

end ModelSchema.Graphql
