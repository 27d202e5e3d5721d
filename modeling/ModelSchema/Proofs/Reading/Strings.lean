/-
What is written between quotes is read back. A quoted text is read as
itself, character by character (`Closed.quoted`). A block string whose
quotes are escaped is read to its own end, whatever it says, and its lines
are those of the text before the escapes (`Closed.block`).
-/
import ModelSchema.Proofs.Reading.Lexing
import ModelSchema.Sdl.Block

namespace ModelSchema.Graphql

-- ========================================================= single quotes

section

open Text (hexDigit hexDigits escapeChar units16)

theorem hexValue?_hexDigit (n : Nat) : hexValue? (hexDigit n) = some (n % 16) := by
  have digits : ∀ d : Fin 16, hexValue? (Nat.digitChar d.val) = some d.val := by decide
  exact digits ⟨n % 16, Nat.mod_lt n (by omega)⟩

theorem hexDigit_ne_brace (n : Nat) : hexDigit n ≠ '\x7b' := by
  have digits : ∀ d : Fin 16, Nat.digitChar d.val ≠ '\x7b' := by decide
  exact digits ⟨n % 16, Nat.mod_lt n (by omega)⟩

theorem hexDigits_four (n : Nat) :
    hexDigits 4 n = [hexDigit (n / 4096), hexDigit (n / 256), hexDigit (n / 16), hexDigit n] := by
  simp only [hexDigits, List.nil_append, List.cons_append, Nat.div_div_eq_div_mul]

/-- Four digits are read as the number that they write. -/
theorem hexCode?_hexDigits {n : Nat} (h : n < 0x10000) (rest : List Char) :
    hexCode? (hexDigits 4 n ++ rest) = some n := by
  rw [hexDigits_four]
  simp only [List.cons_append, hexCode?, hexValue?_hexDigit, Option.bind_eq_bind,
    Option.bind_some, Option.pure_def, Option.some.injEq]
  omega

/-- The escape of a number by four digits. -/
def fixedEscape (n : Nat) : List Char := '\\' :: 'u' :: hexDigits 4 n

theorem readEscape_fixedEscape (n : Nat) (rest : List Char) :
    readEscape (fixedEscape n ++ rest) = readFixed (fixedEscape n ++ rest) := by
  unfold fixedEscape
  rw [hexDigits_four]
  have hbrace := hexDigit_ne_brace (n / 4096)
  generalize hexDigit (n / 4096) = d at hbrace
  simp [readEscape, hbrace]

theorem readFixed_of_scalar {n : Nat} (h : n < 0x10000) (hscalar : isScalarValue n = true)
    (rest : List Char) : readFixed (fixedEscape n ++ rest) = .ok (Char.ofNat n, 6) := by
  have hcode : hexCode? ((fixedEscape n ++ rest).drop 2) = some n := hexCode?_hexDigits h rest
  rw [readFixed]
  simp only [hcode, hscalar, if_true]

/-- The halves of a pair are read as one character. -/
theorem readFixed_of_pair {high low : Nat} (hhigh : 0xd800 ≤ high ∧ high < 0xdc00)
    (hlow : 0xdc00 ≤ low ∧ low < 0xe000) (rest : List Char) :
    readFixed (fixedEscape high ++ (fixedEscape low ++ rest))
      = .ok (Char.ofNat (0x10000 + (high - 0xd800) * 0x400 + (low - 0xdc00)), 12) := by
  have hhighCode : hexCode? ((fixedEscape high ++ (fixedEscape low ++ rest)).drop 2)
      = some high := hexCode?_hexDigits (by omega) _
  have hlowCode : hexCode? ((fixedEscape high ++ (fixedEscape low ++ rest)).drop 8)
      = some low := by
    unfold fixedEscape
    rw [hexDigits_four high]
    exact hexCode?_hexDigits (by omega) rest
  have hsecond : (fixedEscape high ++ (fixedEscape low ++ rest))[6]? = some '\\'
      ∧ (fixedEscape high ++ (fixedEscape low ++ rest))[7]? = some 'u' := by
    unfold fixedEscape
    rw [hexDigits_four high]
    exact ⟨rfl, rfl⟩
  have hnot : isScalarValue high = false := by
    unfold isScalarValue
    simp only [Bool.or_eq_false_iff, Bool.and_eq_false_iff, decide_eq_false_iff_not]
    omega
  rw [readFixed]
  simp [hhighCode, hlowCode, hsecond, hnot, hhigh, hlow]

/-- The rest of an escape is passed over. -/
theorem readString_pass (acc cs tail : List Char) :
    readString acc cs.length (cs ++ tail) = readString acc 0 tail := by
  induction cs with
  | nil => rfl
  | cons c cs ih =>
      rw [List.cons_append, List.length_cons, readString]
      exact ih

theorem readString_escape {d : Char} {cs tail : List Char}
    (h : readEscape ('\\' :: cs ++ tail) = .ok (d, cs.length + 1)) (acc : List Char) :
    readString acc 0 ('\\' :: cs ++ tail) = readString (d :: acc) 0 tail := by
  rw [List.cons_append] at h ⊢
  rw [readString]
  simp only [h]
  exact readString_pass _ _ _

theorem isScalarValue_toNat (c : Char) : isScalarValue c.toNat = true := by
  have h : c.toNat < 0xd800 ∨ 0xdfff < c.toNat ∧ c.toNat < 0x110000 := c.valid
  unfold isScalarValue
  simp only [Bool.or_eq_true, Bool.and_eq_true, decide_eq_true_eq]
  omega

/-- An escape of a character, read back. -/
def Escapes (source : List Char) (c : Char) : Prop :=
  ∃ cs, source = '\\' :: cs ∧ ∀ tail, readEscape ('\\' :: cs ++ tail) = .ok (c, cs.length + 1)

theorem escapes_units (c : Char) : Escapes ((units16 c).flatMap fixedEscape) c := by
  have hvalid := isScalarValue_toNat c
  unfold units16
  by_cases hsmall : c.toNat < 0x10000
  · rw [if_pos hsmall, List.flatMap_singleton]
    refine ⟨_, rfl, fun tail => ?_⟩
    show readEscape (fixedEscape c.toNat ++ tail) = .ok (c, 6)
    rw [readEscape_fixedEscape, readFixed_of_scalar hsmall hvalid, Char.ofNat_toNat]
  · have hlarge : c.toNat < 0x110000 := by
      have h : c.toNat < 0xd800 ∨ 0xdfff < c.toNat ∧ c.toNat < 0x110000 := c.valid
      omega
    rw [if_neg hsmall]
    generalize hhigh : 0xd800 + (c.toNat - 0x10000) / 0x400 = high
    generalize hlow : 0xdc00 + (c.toNat - 0x10000) % 0x400 = low
    have hpoint : 0x10000 + (high - 0xd800) * 0x400 + (low - 0xdc00) = c.toNat := by omega
    have hlength : ('u' :: hexDigits 4 high ++ fixedEscape low).length + 1 = 12 := by
      unfold fixedEscape
      rw [hexDigits_four, hexDigits_four]
      rfl
    refine ⟨'u' :: hexDigits 4 high ++ fixedEscape low, ?_, fun tail => ?_⟩
    · simp only [List.flatMap_cons, List.flatMap_nil, List.append_nil]
      rfl
    · rw [hlength]
      show readEscape (fixedEscape high ++ fixedEscape low ++ tail) = .ok (c, 12)
      rw [List.append_assoc, readEscape_fixedEscape,
        readFixed_of_pair (by omega) (by omega), hpoint, Char.ofNat_toNat]

/-- A character between quotes stands for itself, or is escaped. -/
theorem escapeChar_spec (c : Char) :
    (escapeChar c = [c] ∧ c ∉ ['"', '\\', '\n', '\r']) ∨ Escapes (escapeChar c) c := by
  have letter : ∀ {e d : Char}, (∀ tail, readEscape ('\\' :: [e] ++ tail) = .ok (d, 2)) → c = d →
      Escapes ['\\', e] c := by
    intro e d hread hd
    rw [hd]
    exact ⟨[e], rfl, hread⟩
  unfold escapeChar
  split
  · exact Or.inr (letter (fun _ => rfl) ‹_›)
  split
  · exact Or.inr (letter (fun _ => rfl) ‹_›)
  split
  · exact Or.inr (letter (fun _ => rfl) ‹_›)
  split
  · exact Or.inr (letter (fun _ => rfl) ‹_›)
  split
  · exact Or.inr (letter (fun _ => rfl) ‹_›)
  split
  · next h => exact Or.inr (letter (fun _ => rfl) (Char.toNat_inj.1 h))
  split
  · next h => exact Or.inr (letter (fun _ => rfl) (Char.toNat_inj.1 h))
  split
  · next hquote hslash hfeed hreturn _ _ _ _ =>
      exact Or.inl ⟨rfl, by simp [hquote, hslash, hfeed, hreturn]⟩
  · exact Or.inr (escapes_units c)

/-- A character between quotes is read back, however it is written. -/
theorem readString_escapeChar (c : Char) (acc tail : List Char) :
    readString acc 0 (escapeChar c ++ tail) = readString (c :: acc) 0 tail := by
  rcases escapeChar_spec c with ⟨hself, hplain⟩ | ⟨cs, hescape, hread⟩
  · simp only [List.mem_cons, List.not_mem_nil, or_false, not_or] at hplain
    rw [hself]
    simp [readString, hplain]
  · rw [hescape]
    exact readString_escape (hread tail) acc

theorem readString_quoted (cs acc tail : List Char) :
    readString acc 0 (cs.flatMap escapeChar ++ '"' :: tail)
      = .ok (.string (String.ofList (acc.reverse ++ cs)), tail) := by
  induction cs generalizing acc with
  | nil =>
      rw [List.append_nil]
      rfl
  | cons c cs ih =>
      rw [List.flatMap_cons, List.append_assoc, readString_escapeChar, ih, List.reverse_cons,
        List.append_assoc]
      rfl

/-- After a quote a string is read, unless two more follow. -/
theorem readToken_string {inside : List Char} (h : ∀ more, inside ≠ '"' :: '"' :: more) :
    readToken '"' inside = readString [] 0 inside := by
  have hpunct : Punct.ofChar? '"' = none := rfl
  unfold readToken
  rw [hpunct]
  dsimp only
  rw [if_pos rfl]
  split
  · next more => exact absurd rfl (h more)
  · rfl

/-- A quoted text is read as itself. If it is empty, a quote after it would
make it the start of a block string. -/
theorem Closed.quoted (s : String) {c : Char} {cs : List Char} {ts : List Token} (hc : c ≠ '"')
    (h : Closed (c :: cs) ts) : Closed ((Text.quoted s).toList ++ c :: cs) (.string s :: ts) := by
  intro rest ts' hrest
  have htail : Lexes (c :: (cs ++ rest)) (ts ++ ts') := h rest ts' hrest
  have hstring := readString_quoted s.toList [] (c :: (cs ++ rest))
  rw [List.reverse_nil, List.nil_append, String.ofList_toList] at hstring
  have hlength : (c :: (cs ++ rest)).length
      ≤ (s.toList.flatMap escapeChar ++ '"' :: c :: (cs ++ rest)).length := by
    simp only [List.length_append, List.length_cons]
    omega
  have hsingle : ∀ more,
      s.toList.flatMap escapeChar ++ '"' :: c :: (cs ++ rest) ≠ '"' :: '"' :: more := by
    intro more hmore
    cases hchars : s.toList with
    | nil =>
        rw [hchars] at hmore
        cases hmore
        exact hc rfl
    | cons d ds =>
        rw [hchars, List.flatMap_cons, List.append_assoc] at hmore
        rcases escapeChar_spec d with ⟨hself, hplain⟩ | ⟨_, hescape, _⟩
        · rw [hself] at hmore
          have hd : d = '"' := (List.cons.inj hmore).1
          rw [hd] at hplain
          exact hplain List.mem_cons_self
        · rw [hescape] at hmore
          cases hmore
  have hread : readToken '"' (s.toList.flatMap escapeChar ++ '"' :: c :: (cs ++ rest))
      = .ok (.string s, c :: (cs ++ rest)) := (readToken_string hsingle).trans hstring
  unfold Text.quoted
  rw [String.toList_ofList, List.cons_append, List.cons_append, List.cons_append, List.append_assoc,
    List.append_assoc]
  exact Lexes.token rfl hread hlength htail

end

-- ========================================================= block strings

/-- The lines of a text, given the characters of the line that is open, in
reverse. Here a line ends at a line feed, at a carriage return, or at both
in this order. -/
def BlockString.linesFrom (opened : List Char) : List Char → List (List Char)
  | [] => [opened.reverse]
  | '\r' :: '\n' :: rest => opened.reverse :: linesFrom [] rest
  | c :: rest =>
      if c = '\n' ∨ c = '\r' then opened.reverse :: linesFrom [] rest
      else linesFrom (c :: opened) rest

/-- The text that a block string with this inside denotes. -/
def BlockString.denoted (cs : List Char) : String := value (linesFrom [] cs)

/-- A text that does not end in a quote or backslash, so that quotes after
it are those that close it. -/
def Sealed (cs : List Char) : Prop := ∀ c, cs.getLast? = some c → c ≠ '"' ∧ c ≠ '\\'

section

open Sdl (escapeQuotes)

variable {c : Char} {cs : List Char}

theorem Sealed.tail (h : Sealed (c :: cs)) : Sealed cs := by
  intro d hd
  refine h d ?_
  cases cs with
  | nil => cases hd
  | cons e cs => rw [List.getLast?_cons_cons, hd]

theorem Sealed.append (cs : List Char) {c : Char} (h : c ≠ '"' ∧ c ≠ '\\') :
    Sealed (cs ++ [c]) := by
  intro d hd
  rw [List.getLast?_concat, Option.some.injEq] at hd
  rw [← hd]
  exact h

/-- A number of quotes. -/
def quotes (n : Nat) : List Char := List.replicate n '"'

theorem quotes_prefix_cons {n : Nat} :
    quotes (n + 1) <+: c :: cs ↔ c = '"' ∧ quotes n <+: cs := by
  unfold quotes
  rw [List.replicate_succ, List.cons_prefix_cons]
  exact and_congr_left fun _ => eq_comm

/-- A run of quotes does not go past another character. -/
theorem quotes_prefix_of_append {n : Nat} (hc : c ≠ '"') {rest : List Char}
    (h : quotes n <+: cs ++ c :: rest) : quotes n <+: cs := by
  induction n generalizing cs with
  | zero => exact List.nil_prefix
  | succ n ih =>
      cases cs with
      | nil => exact absurd (quotes_prefix_cons.1 h).1 hc
      | cons d cs =>
          rw [List.cons_append, quotes_prefix_cons] at h
          exact quotes_prefix_cons.2 ⟨h.1, ih h.2⟩

theorem escapeQuotes_quotes (cs : List Char) :
    escapeQuotes (quotes 3 ++ cs) = '\\' :: (quotes 3 ++ escapeQuotes cs) := by
  show escapeQuotes ('"' :: '"' :: '"' :: cs) = _
  rw [escapeQuotes]
  rfl

theorem escapeQuotes_cons (h : ¬ quotes 3 <+: c :: cs) :
    escapeQuotes (c :: cs) = c :: escapeQuotes cs := by
  rw [escapeQuotes]
  rintro rest rfl rfl
  exact h ⟨rest, rfl⟩

theorem escapeQuotes_eq_nil : escapeQuotes cs = [] ↔ cs = [] := by
  constructor
  · intro h
    by_cases hthree : quotes 3 <+: cs
    · obtain ⟨rest, rfl⟩ := hthree
      rw [escapeQuotes_quotes] at h
      cases h
    · cases cs with
      | nil => rfl
      | cons c cs =>
          rw [escapeQuotes_cons hthree] at h
          cases h
  · rintro rfl
    rfl

/-- Escaping puts no quotes together. -/
theorem quotes_prefix_of_escapeQuotes {n : Nat} (h : quotes n <+: escapeQuotes cs) :
    quotes n <+: cs := by
  induction cs generalizing n with
  | nil => exact h
  | cons c cs ih =>
      by_cases hthree : quotes 3 <+: c :: cs
      · obtain ⟨rest, hrest⟩ := hthree
        rw [← hrest, escapeQuotes_quotes] at h
        cases n with
        | zero => exact List.nil_prefix
        | succ n => cases (quotes_prefix_cons.1 h).1
      · rw [escapeQuotes_cons hthree] at h
        cases n with
        | zero => exact List.nil_prefix
        | succ n =>
            rw [quotes_prefix_cons] at h ⊢
            exact ⟨h.1, ih h.2⟩

theorem not_quotes_prefix_escapeQuotes (cs : List Char) : ¬ quotes 3 <+: escapeQuotes cs := by
  intro h
  obtain ⟨rest, hrest⟩ := quotes_prefix_of_escapeQuotes h
  rw [← hrest, escapeQuotes_quotes] at h
  cases (quotes_prefix_cons.1 h).1

/-- Escaping adds nothing but backslashes. -/
theorem mem_of_mem_escapeQuotes (h : c ∈ escapeQuotes cs) : c ∈ cs ∨ c = '\\' := by
  induction cs using Sdl.escapeQuotes.induct with
  | case1 cs ih =>
      change c ∈ '\\' :: '"' :: '"' :: '"' :: escapeQuotes cs at h
      simp only [List.mem_cons] at h ⊢
      rcases h with h | h | h | h | h
      · exact Or.inr h
      · exact Or.inl (Or.inl h)
      · exact Or.inl (Or.inl h)
      · exact Or.inl (Or.inl h)
      · exact (ih h).imp_left fun h => Or.inr (Or.inr (Or.inr h))
  | case2 d cs hnot ih =>
      rw [escapeQuotes] at h
      · rcases List.mem_cons.1 h with h | h
        · exact Or.inl (List.mem_cons.2 (Or.inl h))
        · exact (ih h).imp_left (List.mem_cons_of_mem d)
      · exact hnot
  | case3 => cases h

/-- Only quotes are escaped. -/
theorem escapeQuotes_append (cs : List Char) (hc : c ≠ '"') (rest : List Char) :
    escapeQuotes (cs ++ c :: rest) = escapeQuotes cs ++ c :: escapeQuotes rest := by
  induction cs using Sdl.escapeQuotes.induct with
  | case1 cs ih =>
      have hthree := escapeQuotes_quotes (cs ++ c :: rest)
      rw [ih] at hthree
      exact hthree
  | case2 d cs hnot ih =>
      have hopen : ¬ quotes 3 <+: d :: cs := by
        rintro ⟨more, hmore⟩
        cases hmore
        exact hnot more rfl rfl
      have hopen' : ¬ quotes 3 <+: d :: (cs ++ c :: rest) := fun h => hopen <| by
        rw [← List.cons_append] at h
        exact quotes_prefix_of_append hc h
      rw [List.cons_append, escapeQuotes_cons hopen', ih, escapeQuotes_cons hopen, List.cons_append]
  | case3 =>
      rw [List.nil_append, escapeQuotes_cons]
      · rfl
      · exact fun h => hc (quotes_prefix_cons.1 h).1

theorem escapeQuotes_ne_lineFeed {rest : List Char} (h : ∀ more, cs ≠ '\n' :: more)
    (hrest : cs = [] → ∀ more, rest ≠ '\n' :: more) (more : List Char) :
    escapeQuotes cs ++ rest ≠ '\n' :: more := by
  intro heq
  by_cases hthree : quotes 3 <+: cs
  · obtain ⟨tail, rfl⟩ := hthree
    rw [escapeQuotes_quotes] at heq
    cases heq
  · cases cs with
    | nil => exact hrest rfl more heq
    | cons c cs =>
        rw [escapeQuotes_cons hthree] at heq
        cases heq
        exact h cs rfl

-- ---------------------------------------------------- reading them back

variable {line : List Char} {before : List (List Char)}

theorem readBlockString_escape (cs : List Char) :
    readBlockString line before ('\\' :: (quotes 3 ++ cs))
      = readBlockString ((quotes 3).reverse ++ line) before cs := rfl

/-- A character that ends no string, escapes nothing and is no half of the
end of a line ends a line of its own or is read as itself. -/
theorem readBlockString_char (hclose : ¬ quotes 3 <+: c :: cs)
    (hescape : c = '\\' → ¬ quotes 3 <+: cs) (hpair : c = '\r' → ∀ rest, cs ≠ '\n' :: rest) :
    readBlockString line before (c :: cs)
      = if c = '\n' ∨ c = '\r' then readBlockString [] (line.reverse :: before) cs
        else readBlockString (c :: line) before cs := by
  rw [readBlockString]
  · rintro rest rfl rfl
    exact hclose ⟨rest, rfl⟩
  · rintro rest rfl rfl
    exact hescape rfl ⟨rest, rfl⟩
  · rintro rest rfl rfl
    exact hpair rfl rest rfl

theorem readBlockString_cons (hc : c ≠ '\n' ∧ c ≠ '\r') (hclose : ¬ quotes 3 <+: c :: cs)
    (hescape : c = '\\' → ¬ quotes 3 <+: cs) :
    readBlockString line before (c :: cs) = readBlockString (c :: line) before cs := by
  rw [readBlockString_char hclose hescape fun h => absurd h hc.2, if_neg (not_or.2 hc)]

theorem readBlockString_lineFeed (cs : List Char) :
    readBlockString line before ('\n' :: cs) = readBlockString [] (line.reverse :: before) cs := by
  rw [readBlockString_char (fun h => by cases (quotes_prefix_cons.1 h).1) (fun h => by cases h)
    (fun h => by cases h), if_pos (Or.inl rfl)]

theorem readBlockString_return (h : ∀ rest, cs ≠ '\n' :: rest) :
    readBlockString line before ('\r' :: cs) = readBlockString [] (line.reverse :: before) cs := by
  rw [readBlockString_char (fun h => by cases (quotes_prefix_cons.1 h).1) (fun h => by cases h)
    (fun _ => h), if_pos (Or.inr rfl)]

/-- Quotes after a sealed text do not go on with quotes in it. -/
theorem Sealed.quotes_prefix {n : Nat} (h : Sealed cs) (hsome : cs ≠ []) {rest : List Char}
    (hquotes : quotes n <+: escapeQuotes cs ++ rest) : quotes n <+: escapeQuotes cs := by
  obtain ⟨start, d, rfl⟩ : ∃ start d, cs = start ++ [d] :=
    ⟨cs.dropLast, cs.getLast hsome, (List.dropLast_concat_getLast hsome).symm⟩
  have hd : d ≠ '"' := (h d List.getLast?_concat).1
  rw [escapeQuotes_append start hd] at hquotes ⊢
  rw [List.append_assoc] at hquotes
  exact (quotes_prefix_of_append hd hquotes).trans (List.prefix_append _ _)

theorem Sealed.not_closed (h : Sealed (c :: cs)) (hopen : ¬ quotes 3 <+: c :: cs)
    (rest : List Char) : ¬ quotes 3 <+: c :: (escapeQuotes cs ++ rest) := by
  intro hquotes
  obtain ⟨rfl, htwo⟩ := quotes_prefix_cons.1 hquotes
  have hsome : cs ≠ [] := by
    rintro rfl
    exact (h '"' rfl).1 rfl
  have hcs := quotes_prefix_of_escapeQuotes (h.tail.quotes_prefix hsome htwo)
  exact hopen (quotes_prefix_cons.2 ⟨rfl, hcs⟩)

theorem Sealed.not_escaped (h : Sealed ('\\' :: cs)) (rest : List Char) :
    ¬ quotes 3 <+: escapeQuotes cs ++ rest := by
  intro hquotes
  have hsome : cs ≠ [] := by
    rintro rfl
    exact (h '\\' rfl).2 rfl
  exact not_quotes_prefix_escapeQuotes cs (h.tail.quotes_prefix hsome hquotes)

/-- What is escaped is read up to the quotes that close it. -/
theorem readBlockString_escapeQuotes (h : Sealed cs) (rest : List Char) :
    readBlockString line before (escapeQuotes cs ++ (quotes 3 ++ rest))
      = .ok (.blockString (BlockString.value (before.reverse ++ BlockString.linesFrom line cs)),
          rest) := by
  induction hn : cs.length using Nat.strongRecOn generalizing cs line before with
  | ind n ih =>
  subst hn
  -- the line that is open ends, and what is left is shorter
  have next : ∀ more : List Char, more.length < cs.length → Sealed more →
      readBlockString [] (line.reverse :: before) (escapeQuotes more ++ (quotes 3 ++ rest))
        = .ok (.blockString (BlockString.value
            (before.reverse ++ line.reverse :: BlockString.linesFrom [] more)), rest) := by
    intro more hlength hsealed
    rw [ih more.length hlength hsealed rfl, List.reverse_cons, List.append_assoc]
    rfl
  by_cases hthree : quotes 3 <+: cs
  · obtain ⟨more, rfl⟩ := hthree
    have hlength : more.length < (quotes 3 ++ more).length := by
      show more.length < more.length + 1 + 1 + 1
      omega
    have hmore : Sealed more := h.tail.tail.tail
    rw [escapeQuotes_quotes, List.cons_append, List.append_assoc, readBlockString_escape,
      ih more.length hlength hmore rfl]
    rfl
  · cases cs with
    | nil =>
        show Except.ok (Token.blockString (BlockString.value (line.reverse :: before).reverse), rest)
          = _
        rw [List.reverse_cons]
        rfl
    | cons c cs =>
        have hshorter : cs.length < (c :: cs).length := Nat.lt_succ_self _
        rw [escapeQuotes_cons hthree, List.cons_append]
        by_cases hfeed : c = '\n'
        · subst hfeed
          rw [readBlockString_lineFeed, next cs hshorter h.tail]
          rfl
        by_cases hreturn : c = '\r'
        · subst hreturn
          by_cases hboth : ∃ more, cs = '\n' :: more
          · obtain ⟨more, rfl⟩ := hboth
            have hlength : more.length < ('\r' :: '\n' :: more).length := by
              rw [List.length_cons, List.length_cons]
              omega
            exact next more hlength h.tail.tail
          · have hnone : ∀ more, cs ≠ '\n' :: more := fun more hmore => hboth ⟨more, hmore⟩
            rw [readBlockString_return (escapeQuotes_ne_lineFeed hnone fun _ _ => by simp [quotes]),
              next cs hshorter h.tail, BlockString.linesFrom]
            · rfl
            · exact fun more _ => hnone more
        rw [readBlockString_cons ⟨hfeed, hreturn⟩ (h.not_closed hthree _),
          ih cs.length hshorter h.tail rfl, BlockString.linesFrom]
        · rw [if_neg (by rw [not_or]; exact ⟨hfeed, hreturn⟩)]
        · rintro more rfl
          exact absurd rfl hreturn
        · rintro rfl
          exact h.not_escaped _

/-- A block string whose quotes are escaped denotes what it says. -/
theorem Closed.block (h : Sealed cs) :
    Closed (quotes 3 ++ (escapeQuotes cs ++ quotes 3)) [.blockString (BlockString.denoted cs)] := by
  intro rest ts hrest
  have hread : readBlockString [] [] (escapeQuotes cs ++ (quotes 3 ++ rest)) = _ :=
    readBlockString_escapeQuotes h rest
  have hlength : rest.length ≤ ('"' :: '"' :: (escapeQuotes cs ++ (quotes 3 ++ rest))).length := by
    simp only [List.length_cons, List.length_append]
    omega
  rw [List.append_assoc, List.append_assoc]
  exact Lexes.token rfl hread hlength hrest

end

end ModelSchema.Graphql
