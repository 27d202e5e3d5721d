/-
What a reader of tokens takes of a text. A token is told by its own
characters and by the one after them, so it is read again wherever these
characters stand, if what follows starts as before or with a character that
goes on with no token (`Local`). All tokens but block strings stay on their
line; a block string ends at its own quotes, whatever follows.
-/
import ModelSchema.Proofs.Reading.Strings
import ModelSchema.Proofs.Run

namespace ModelSchema.Graphql

-- =============================================================== readers

/-- A text without the line ends of documents. -/
def InLine (cs : List Char) : Prop := ∀ c ∈ cs, c ≠ '\n' ∧ c ≠ '\r'

theorem InLine.nil : InLine [] := fun _ h => nomatch h

theorem InLine.cons {c : Char} {cs : List Char} (hc : c ≠ '\n' ∧ c ≠ '\r') (h : InLine cs) :
    InLine (c :: cs) := List.forall_mem_cons.2 ⟨hc, h⟩

theorem InLine.append {cs cs' : List Char} (h : InLine cs) (h' : InLine cs') :
    InLine (cs ++ cs') := List.forall_mem_append.2 ⟨h, h'⟩

/-- What may come after a token instead of what comes after it: a text that
starts as that does, or with a character that goes on with no token. -/
def Akin (rest more : List Char) : Prop :=
  more.head? = rest.head? ∨ Stops more

/-- A reader that takes some characters of a line, and takes the same again
wherever they stand. -/
def Local {α : Type} (read : List Char → Except SyntaxFault (α × List Char)) : Prop :=
  ∀ ⦃cs a rest⦄, read cs = .ok (a, rest) →
    ∃ taken, cs = taken ++ rest ∧ InLine taken ∧
      ∀ more, Akin rest more → read (taken ++ more) = .ok (a, more)

section

variable {rest more : List Char}

theorem akin_nil (rest : List Char) : Akin rest [] := .inr stops_nil

/-- A text may go on after a loose character. -/
theorem akin_append {more : List Char} (h : Stops more) (rest : List Char) :
    Akin rest (rest ++ more) := by
  cases rest with
  | nil => exact .inr h
  | cons d rest => exact .inl rfl

theorem Akin.append (h : Akin rest more) (taken : List Char) :
    Akin (taken ++ rest) (taken ++ more) := by
  cases taken with
  | nil => exact h
  | cons c taken => exact .inl rfl

/-- What is not true of the character after a token is not true of the one
that stands there instead, if it is not true of loose characters. -/
theorem Akin.head?_any (h : Akin rest more) {p : Char → Bool}
    (hp : ∀ c, isLoose c = true → p c = false) (hnot : ¬ rest.head?.any p = true) :
    ¬ more.head?.any p = true := by
  rcases h with heq | hloose
  · rwa [heq]
  · cases hhead : more.head? with
    | none => exact Bool.false_ne_true
    | some c =>
        show ¬ p c = true
        rw [hp c (hloose c hhead)]
        exact Bool.false_ne_true

end

section

variable {α β : Type} {read : List Char → Except SyntaxFault (α × List Char)}

theorem Local.pure (a : α) : Local fun cs => .ok (a, cs) := by
  intro cs a' rest hread
  cases hread
  exact ⟨[], rfl, InLine.nil, fun more _ => rfl⟩

theorem Local.bind {next : α → List Char → Except SyntaxFault (β × List Char)}
    (h : Local read) (hnext : ∀ a, Local (next a)) :
    Local fun cs => read cs >>= fun r => next r.1 r.2 := by
  intro cs b rest hread
  obtain ⟨⟨a, between⟩, hfirst, hsecond⟩ := bind_eq_ok.1 hread
  obtain ⟨taken, rfl, hline, hagain⟩ := h hfirst
  obtain ⟨taken', rfl, hline', hagain'⟩ := hnext a hsecond
  refine ⟨taken ++ taken', (List.append_assoc ..).symm, hline.append hline', fun more hmore => ?_⟩
  show (read _ >>= _) = _
  rw [List.append_assoc, hagain _ (hmore.append taken')]
  exact hagain' more hmore

theorem Local.map (h : Local read) (f : α → β) :
    Local fun cs => read cs >>= fun r => .ok (f r.1, r.2) := by
  have hnext : ∀ a, Local fun cs => .ok (f a, cs) := fun a => Local.pure (f a)
  exact h.bind hnext

/-- A reader that goes on in one way after a mark, and in another way without
it. -/
theorem Local.of_mark (mark : Char) (hmark : isLoose mark = false ∧ mark ≠ '\n' ∧ mark ≠ '\r')
    {next other : List Char → Except SyntaxFault (α × List Char)} (hnext : Local next)
    (helse : Local other) (hwith : ∀ cs, read (mark :: cs) = next cs)
    (hwithout : ∀ cs, cs.head? ≠ some mark → read cs = other cs) : Local read := by
  intro cs a rest hread
  by_cases hhead : cs.head? = some mark
  · obtain ⟨tail, rfl⟩ := List.head?_eq_some_iff.1 hhead
    rw [hwith] at hread
    obtain ⟨taken, rfl, hline, hagain⟩ := hnext hread
    exact ⟨mark :: taken, rfl, hline.cons hmark.2,
      fun more hmore => (hwith _).trans (hagain more hmore)⟩
  · rw [hwithout cs hhead] at hread
    obtain ⟨taken, rfl, hline, hagain⟩ := helse hread
    refine ⟨taken, rfl, hline, fun more hmore =>
      (hwithout _ fun hmark' => ?_).trans (hagain more hmore)⟩
    rcases hmore.append taken with heq | hloose
    · exact hhead (heq ▸ hmark')
    · exact Bool.false_ne_true (hmark.1.symm.trans (hloose mark hmark'))

end

-- ================================================================== runs

section

variable {p : Char → Bool}

/-- A class of characters that ends before a token does. -/
structure Inside (p : Char → Bool) : Prop where
  loose : ∀ c, isLoose c = true → p c = false
  lineFeed : p '\n' = false
  carriageReturn : p '\r' = false

theorem Inside.of_all (h : ('\r' :: looseChars).all (fun c => !p c) = true) : Inside p := by
  have hall : ∀ c ∈ '\r' :: looseChars, p c = false := fun c hc => by
    simpa using List.all_eq_true.1 h c hc
  exact ⟨fun c hc => hall c (List.mem_cons_of_mem _ (mem_looseChars hc)),
    hall '\n' (List.mem_cons_of_mem _ (mem_looseChars rfl)), hall '\r' List.mem_cons_self⟩

/-- A run of characters of a class is taken again, up to a character that is
not in it. -/
theorem takeWhile_append (hp : Inside p) {cs more : List Char} (h : Akin (cs.dropWhile p) more) :
    (cs.takeWhile p ++ more).takeWhile p = cs.takeWhile p
      ∧ (cs.takeWhile p ++ more).dropWhile p = more := by
  have hrest : ¬ (cs.dropWhile p).head?.any p = true := by
    have hnot := List.head?_dropWhile_not p cs
    cases hhead : (cs.dropWhile p).head? with
    | none => exact Bool.false_ne_true
    | some c =>
        rw [hhead] at hnot
        exact Bool.eq_false_iff.1 hnot
  have hmore := h.head?_any hp.loose hrest
  have hall : ∀ c ∈ cs.takeWhile p, p c = true := List.all_eq_true.1 List.all_takeWhile
  rw [List.takeWhile_append_of_pos hall, List.dropWhile_append_of_pos hall]
  cases more with
  | nil => simp
  | cons c more =>
      have hc : ¬ p c = true := hmore
      simp [hc]

theorem inLine_takeWhile (hp : Inside p) (cs : List Char) : InLine (cs.takeWhile p) := by
  intro c hc
  have hpc : p c = true := List.all_eq_true.1 List.all_takeWhile c hc
  refine ⟨?_, ?_⟩
  · rintro rfl
    exact Bool.false_ne_true (hp.lineFeed.symm.trans hpc)
  · rintro rfl
    exact Bool.false_ne_true (hp.carriageReturn.symm.trans hpc)

theorem inside_isDigit : Inside Char.isDigit := Inside.of_all rfl

theorem inside_isNamePart : Inside isNamePart := Inside.of_all rfl

end

-- =============================================================== numbers

theorem local_readDigits : Local readDigits := by
  intro cs ds rest h
  unfold readDigits at h ⊢
  split at h
  · next hdigit =>
    cases h
    refine ⟨_, List.takeWhile_append_dropWhile.symm, inLine_takeWhile inside_isDigit cs,
      fun more hmore => ?_⟩
    have hhead : (cs.takeWhile Char.isDigit ++ more).head?.any Char.isDigit = true := by
      cases cs with
      | nil => cases hdigit
      | cons c cs =>
          have hc : c.isDigit = true := hdigit
          rw [List.takeWhile_cons_of_pos hc]
          exact hc
    obtain ⟨htake, hdrop⟩ := takeWhile_append inside_isDigit hmore
    rw [if_pos hhead, htake, hdrop]
  · cases h

theorem local_readWhole : Local readWhole := by
  have zero : Local fun cs => if cs.head?.any Char.isDigit then
      .error (.digitAfterZero cs.head?) else .ok (['0'], cs) := by
    intro cs ds rest h
    dsimp only at h ⊢
    split at h
    · cases h
    · next hdigit =>
      cases h
      exact ⟨[], rfl, InLine.nil, fun more hmore =>
        if_neg (hmore.head?_any inside_isDigit.loose hdigit)⟩
  refine Local.of_mark '0' (by decide) zero local_readDigits (fun cs => rfl) fun cs hhead => ?_
  unfold readWhole
  split
  · exact absurd rfl hhead
  · rfl

theorem local_readFraction : Local readFraction := by
  refine Local.of_mark '.' (by decide) (local_readDigits.map fun ds => '.' :: ds)
    (Local.pure []) (fun cs => rfl) fun cs hhead => ?_
  unfold readFraction
  split
  · exact absurd rfl hhead
  · rfl

theorem local_signOf : Local fun cs => .ok (signOf cs) := by
  refine Local.of_mark '-' (by decide) (Local.pure ['-']) (Local.pure []) (fun cs => rfl)
    fun cs hhead => ?_
  unfold signOf
  split
  · exact absurd rfl hhead
  · rfl

theorem local_exponentSign : Local fun cs => .ok (exponentSign cs) := by
  refine Local.of_mark '+' (by decide) (Local.pure ['+']) local_signOf (fun cs => rfl)
    fun cs hhead => ?_
  unfold exponentSign signOf
  split
  · exact absurd rfl hhead
  · rfl
  · next hminus =>
    split
    · exact absurd rfl (hminus _)
    · rfl

/-- The letter of an exponent, its sign and its digits. -/
theorem local_exponentAfter (c : Char) : Local fun cs =>
    (.ok (exponentSign cs) : Except SyntaxFault _) >>= fun r =>
      readDigits r.2 >>= fun s => .ok (c :: r.1 ++ s.1, s.2) :=
  local_exponentSign.bind fun sign => local_readDigits.map fun ds => c :: sign ++ ds

/-- Without its letter there is no exponent. -/
theorem readExponent_eq_nil {cs : List Char}
    (h : ¬ cs.head?.any (fun c => c = 'e' || c = 'E') = true) : readExponent cs = .ok ([], cs) := by
  cases cs with
  | nil => rfl
  | cons c cs =>
      refine if_neg fun hc => h ?_
      show (decide (c = 'e') || decide (c = 'E')) = true
      simpa using hc

theorem local_readExponent : Local readExponent := by
  have hinside : Inside fun c => c = 'e' || c = 'E' := Inside.of_all rfl
  intro cs ds rest h
  by_cases hhead : cs.head?.any (fun c => c = 'e' || c = 'E') = true
  · cases cs with
    | nil => cases hhead
    | cons c cs =>
        have hany : (decide (c = 'e') || decide (c = 'E')) = true := hhead
        have hc : c = 'e' ∨ c = 'E' := by simpa using hany
        rw [readExponent, if_pos hc] at h
        obtain ⟨taken, rfl, hline, hagain⟩ := local_exponentAfter c h
        refine ⟨c :: taken, rfl, hline.cons ?_, fun more hmore => ?_⟩
        · rcases hc with rfl | rfl <;> decide
        · rw [List.cons_append, readExponent, if_pos hc]
          exact hagain more hmore
  · rw [readExponent_eq_nil hhead] at h
    cases h
    exact ⟨[], rfl, InLine.nil, fun more hmore =>
      readExponent_eq_nil (hmore.head?_any hinside.loose hhead)⟩

theorem local_endNumber (sign whole fraction exponent : List Char) :
    Local (endNumber sign whole fraction exponent) := by
  have hinside : Inside fun c => c = '.' || isNameStart c := Inside.of_all rfl
  intro cs t rest h
  unfold endNumber at h ⊢
  split at h
  · cases h
  · next hend =>
    cases h
    exact ⟨[], rfl, InLine.nil, fun more hmore => if_neg (hmore.head?_any hinside.loose hend)⟩

theorem local_readNumber : Local readNumber :=
  local_signOf.bind fun sign => local_readWhole.bind fun whole =>
    local_readFraction.bind fun fraction => local_readExponent.bind fun exponent =>
      local_endNumber sign whole fraction exponent

-- ========================================================= single quotes

section

variable {c : Char} {n : Nat} {cs : List Char}

theorem inLine_of_hexValue? {c : Char} {value : Nat} (h : hexValue? c = some value) :
    c ≠ '\n' ∧ c ≠ '\r' := by
  constructor <;>
  · rintro rfl
    cases h

/-- Four digits are read again. -/
theorem hexCode?_local (h : hexCode? cs = some n) :
    ∃ d₁ d₂ d₃ d₄ rest, cs = d₁ :: d₂ :: d₃ :: d₄ :: rest ∧ InLine [d₁, d₂, d₃, d₄] ∧
      ∀ more, hexCode? (d₁ :: d₂ :: d₃ :: d₄ :: more) = some n := by
  unfold hexCode? at h
  split at h
  · next d₁ d₂ d₃ d₄ rest =>
    obtain ⟨_, h₁, hrest⟩ := Option.bind_eq_some_iff.1 h
    obtain ⟨_, h₂, hrest⟩ := Option.bind_eq_some_iff.1 hrest
    obtain ⟨_, h₃, hrest⟩ := Option.bind_eq_some_iff.1 hrest
    obtain ⟨_, h₄, -⟩ := Option.bind_eq_some_iff.1 hrest
    have hline : InLine [d₁, d₂, d₃, d₄] :=
      (((InLine.nil.cons (inLine_of_hexValue? h₄)).cons (inLine_of_hexValue? h₃)).cons
        (inLine_of_hexValue? h₂)).cons (inLine_of_hexValue? h₁)
    exact ⟨d₁, d₂, d₃, d₄, rest, rfl, hline, fun more => h⟩
  · cases h

/-- An escape between braces ends at its brace. -/
theorem readBraced_local {source : List Char} {point size : Nat}
    (h : readBraced source point size cs = .ok (c, n)) :
    ∃ taken rest, cs = taken ++ rest ∧ n = size + taken.length ∧ InLine taken ∧
      ∀ source more, readBraced source point size (taken ++ more) = .ok (c, n) := by
  induction cs generalizing point size with
  | nil => cases h
  | cons d cs ih =>
      unfold readBraced at h
      dsimp only at h
      by_cases hbrace : d = '\x7d'
      · subst hbrace
        rw [if_pos rfl] at h
        split at h
        · cases h
        · next hsize =>
          cases h
          refine ⟨['\x7d'], cs, rfl, rfl, InLine.nil.cons (by decide), fun source more => ?_⟩
          show readBraced source point size ('\x7d' :: more) = _
          unfold readBraced
          dsimp only
          rw [if_pos rfl, if_neg hsize]
      · rw [if_neg hbrace] at h
        cases hd : hexValue? d with
        | none =>
            rw [hd] at h
            cases h
        | some value =>
            rw [hd] at h
            obtain ⟨taken, rest, rfl, rfl, hline, hagain⟩ := ih h
            refine ⟨d :: taken, rest, rfl, ?_, hline.cons (inLine_of_hexValue? hd),
              fun source more => ?_⟩
            · rw [List.length_cons]
              omega
            · rw [List.cons_append, readBraced, if_neg hbrace, hd]
              exact hagain source more

/-- An escape of fixed length is read again: four digits, or two times four
for the halves of a pair. -/
theorem readFixed_local (h : readFixed ('\\' :: 'u' :: cs) = .ok (c, n)) :
    ∃ taken rest, cs = taken ++ rest ∧ n = taken.length + 2 ∧ InLine taken ∧
      ∀ more, readFixed ('\\' :: 'u' :: (taken ++ more)) = .ok (c, n) := by
  unfold readFixed at h
  dsimp only [List.drop] at h
  split at h
  · cases h
  next high hhigh =>
  obtain ⟨d₁, d₂, d₃, d₄, rest, rfl, hline, hagain⟩ := hexCode?_local hhigh
  split at h
  · next hscalar =>
    cases h
    refine ⟨[d₁, d₂, d₃, d₄], rest, rfl, rfl, hline, fun more => ?_⟩
    unfold readFixed
    dsimp only [List.drop, List.cons_append, List.nil_append]
    rw [hagain]
    dsimp only
    rw [if_pos hscalar]
  next hscalar =>
  split at h
  · next hpair =>
    split at h
    · next low hlow =>
      simp only [List.getElem?_cons_succ, Bool.and_eq_true, beq_iff_eq] at hpair
      obtain ⟨⟨hsmall, hslash⟩, hu⟩ := hpair
      match rest with
      | [] => cases hslash
      | [_] => cases hu
      | e₁ :: e₂ :: rest =>
        cases hslash
        cases hu
        obtain ⟨f₁, f₂, f₃, f₄, rest, rfl, hline', hagain'⟩ := hexCode?_local hlow
        split at h
        · next hrange =>
          obtain ⟨rfl, rfl⟩ := Prod.mk.inj (Except.ok.inj h)
          refine ⟨[d₁, d₂, d₃, d₄, '\\', 'u', f₁, f₂, f₃, f₄], rest, rfl, rfl,
            hline.append ((hline'.cons (by decide)).cons (by decide)), fun more => ?_⟩
          unfold readFixed
          dsimp only [List.drop, List.cons_append, List.nil_append]
          rw [hagain]
          dsimp only
          rw [if_neg hscalar]
          refine (if_pos ?_).trans ?_
          · rw [hsmall]
            rfl
          · rw [hagain']
            exact if_pos hrange
        · cases h
    · cases h
  · cases h

theorem readEscape_fixed {d : Char} (hd : d ≠ '\x7b') (cs : List Char) :
    readEscape ('\\' :: 'u' :: d :: cs) = readFixed ('\\' :: 'u' :: d :: cs) := by
  unfold readEscape
  split
  · next heq => exact absurd (List.cons.inj (List.cons.inj (List.cons.inj heq).2).2).1 hd
  · rfl
  all_goals simp at *

/-- An escape is told by its own characters. -/
theorem readEscape_local (h : readEscape ('\\' :: cs) = .ok (c, n)) :
    ∃ taken rest, cs = taken ++ rest ∧ n = taken.length + 1 ∧ InLine taken ∧
      ∀ more, readEscape ('\\' :: taken ++ more) = .ok (c, n) := by
  unfold readEscape at h
  split at h
  · next cs heq =>
    cases heq
    obtain ⟨taken, rest, htake, rfl, hline, hagain⟩ := readBraced_local h
    have hsplit : cs = taken ++ (rest ++ cs.drop 9) := by
      rw [← List.append_assoc, ← htake, List.take_append_drop]
    have hlength : taken.length ≤ 9 := by
      have hnine := congrArg List.length htake
      rw [List.length_take, List.length_append] at hnine
      omega
    refine ⟨'u' :: '\x7b' :: taken, rest ++ cs.drop 9,
      congrArg (fun cs => 'u' :: '\x7b' :: cs) hsplit, ?_,
      (hline.cons (by decide)).cons (by decide), fun more => ?_⟩
    · simp only [List.length_cons]
      omega
    · show readBraced _ 0 3 ((taken ++ more).take 9) = _
      rw [List.take_append, List.take_of_length_le hlength]
      exact hagain _ _
  · next cs hbrace heq =>
    cases heq
    obtain ⟨taken, rest, rfl, rfl, hline, hagain⟩ := readFixed_local h
    cases taken with
    | nil => cases hagain []
    | cons d taken =>
        have hd : d ≠ '\x7b' := fun heq => hbrace (taken ++ rest) (by rw [heq]; rfl)
        refine ⟨'u' :: d :: taken, rest, rfl, rfl, hline.cons (by decide), fun more => ?_⟩
        exact (readEscape_fixed hd _).trans (hagain more)
  case h_11 => cases h
  all_goals
  · next heq =>
    cases heq
    cases h
    exact ⟨[_], _, rfl, rfl, InLine.nil.cons (by decide), fun more => rfl⟩

end

theorem local_readString (acc : List Char) : Local (readString acc 0) := by
  intro cs
  induction hlength : cs.length using Nat.strongRecOn generalizing acc cs with
  | ind length ih =>
      intro t rest h
      cases cs with
      | nil => cases h
      | cons c cs =>
          rw [readString] at h
          by_cases hquote : c = '"'
          · subst hquote
            rw [if_pos rfl] at h
            cases h
            exact ⟨['"'], rfl, InLine.nil.cons (by decide), fun more _ => rfl⟩
          rw [if_neg hquote] at h
          by_cases hend : c = '\n' ∨ c = '\r'
          · rw [if_pos hend] at h
            cases h
          rw [if_neg hend] at h
          by_cases hslash : c = '\\'
          · subst hslash
            rw [if_pos rfl] at h
            cases hescape : readEscape ('\\' :: cs) with
            | error e =>
                rw [hescape] at h
                cases h
            | ok r =>
                obtain ⟨d, size⟩ := r
                rw [hescape] at h
                obtain ⟨inside, tail, rfl, rfl, hline, hagain⟩ := readEscape_local hescape
                have hpass : readString (d :: acc) 0 tail = .ok (t, rest) :=
                  (readString_pass (d :: acc) inside tail).symm.trans h
                have hshorter : tail.length < length := by
                  rw [← hlength, List.length_cons, List.length_append]
                  omega
                obtain ⟨taken, rfl, hline', hagain'⟩ := ih _ hshorter (d :: acc) rfl hpass
                refine ⟨'\\' :: inside ++ taken, ?_, (hline.cons (by decide)).append hline',
                  fun more hmore => ?_⟩
                · rw [List.cons_append, List.cons_append, List.append_assoc]
                · rw [List.append_assoc, readString_escape (hagain _)]
                  exact hagain' more hmore
          · rw [if_neg hslash] at h
            have hshorter : cs.length < length := hlength ▸ Nat.lt_succ_self _
            obtain ⟨taken, rfl, hline, hagain⟩ := ih _ hshorter (c :: acc) rfl h
            refine ⟨c :: taken, rfl, hline.cons (not_or.1 hend), fun more hmore => ?_⟩
            rw [List.cons_append, readString, if_neg hquote, if_neg hend, if_neg hslash]
            exact hagain more hmore

-- ========================================================= block strings

/-- What a long enough text starts with does not depend on what follows. -/
theorem prefix_append_of_prefix_append {start taken more : List Char}
    (hlength : start.length ≤ taken.length) (h : start <+: taken ++ more) (rest : List Char) :
    start <+: taken ++ rest :=
  (List.prefix_of_prefix_length_le h (List.prefix_append _ _) hlength).trans
    (List.prefix_append _ _)

/-- A character of a block string is read again, given what may not come
after it and enough of what does. -/
theorem readBlockString_char_again {line : List Char} {before : List (List Char)} {c : Char}
    {taken rest : List Char} (hthree : 3 ≤ taken.length)
    (hclose : ∀ inside, c = '"' → taken ++ rest = '"' :: '"' :: inside → False)
    (hescape : ∀ inside, c = '\\' → taken ++ rest = '"' :: '"' :: '"' :: inside → False)
    (hpair : ∀ inside, c = '\r' → taken ++ rest = '\n' :: inside → False) (more : List Char) :
    readBlockString line before (c :: (taken ++ more))
      = if c = '\n' ∨ c = '\r' then readBlockString [] (line.reverse :: before) (taken ++ more)
        else readBlockString (c :: line) before (taken ++ more) := by
  have back : ∀ {start : List Char}, start.length ≤ 3 → start <+: taken ++ more →
      start <+: taken ++ rest :=
    fun hlength h => prefix_append_of_prefix_append (Nat.le_trans hlength hthree) h rest
  refine readBlockString_char (fun hquotes => ?_) (fun hslash hquotes => ?_)
    fun hreturn cs heq => ?_
  · obtain ⟨hc, hquotes⟩ := quotes_prefix_cons.1 hquotes
    obtain ⟨inside, heq⟩ := back (by decide : (quotes 2).length ≤ 3) hquotes
    exact hclose inside hc heq.symm
  · obtain ⟨inside, heq⟩ := back (by decide : (quotes 3).length ≤ 3) hquotes
    exact hescape inside hslash heq.symm
  · obtain ⟨inside, heq⟩ := back (by decide : ['\n'].length ≤ 3) ⟨cs, heq.symm⟩
    exact hpair inside hreturn heq.symm

/-- A block string ends at its own quotes. -/
theorem readBlockString_local {line : List Char} {before : List (List Char)} {cs rest : List Char}
    {t : Token} (h : readBlockString line before cs = .ok (t, rest)) :
    ∃ taken, cs = taken ++ rest ∧ 3 ≤ taken.length ∧
      ∀ more, readBlockString line before (taken ++ more) = .ok (t, more) := by
  induction line, before, cs using readBlockString.induct with
  | case1 line before => cases h
  | case2 line before cs =>
      cases h
      exact ⟨quotes 3, rfl, by decide, fun more => rfl⟩
  | case3 line before cs ih =>
      obtain ⟨taken, rfl, hthree, hagain⟩ := ih h
      refine ⟨'\\' :: '"' :: '"' :: '"' :: taken, rfl, ?_, hagain⟩
      exact Nat.le_trans hthree (Nat.le_add_right _ 4)
  | case4 line before cs ih =>
      obtain ⟨taken, rfl, hthree, hagain⟩ := ih h
      exact ⟨'\r' :: '\n' :: taken, rfl, Nat.le_trans hthree (Nat.le_add_right _ 2), hagain⟩
  | case5 line before c cs hclose hescape hpair hend ih =>
      rw [readBlockString, if_pos hend] at h
      · obtain ⟨taken, rfl, hthree, hagain⟩ := ih h
        refine ⟨c :: taken, rfl, Nat.le_succ_of_le hthree, fun more => ?_⟩
        rw [List.cons_append, readBlockString_char_again hthree hclose hescape hpair, if_pos hend]
        exact hagain more
      · exact hclose
      · exact hescape
      · exact hpair
  | case6 line before c cs hclose hescape hpair hend ih =>
      rw [readBlockString, if_neg hend] at h
      · obtain ⟨taken, rfl, hthree, hagain⟩ := ih h
        refine ⟨c :: taken, rfl, Nat.le_succ_of_le hthree, fun more => ?_⟩
        rw [List.cons_append, readBlockString_char_again hthree hclose hescape hpair, if_neg hend]
        exact hagain more
      · exact hclose
      · exact hescape
      · exact hpair

-- ================================================================ tokens

/-- Two quotes after the first one stand within a string that is read, or are
its last one and the next. -/
theorem quotes_prefix_of_akin {taken rest more : List Char} (hsome : taken ≠ [])
    (hmore : Akin rest more) (h : quotes 2 <+: taken ++ more) : quotes 2 <+: taken ++ rest := by
  match taken with
  | [] => exact absurd rfl hsome
  | d :: e :: taken =>
      have hlength : (quotes 2).length ≤ (d :: e :: taken).length := Nat.le_add_left 2 _
      exact prefix_append_of_prefix_append hlength h rest
  | [d] =>
      obtain ⟨hd, hmark⟩ := quotes_prefix_cons.1 h
      have hquote : more.head? = some '"' := by
        cases more with
        | nil => cases List.prefix_nil.1 hmark
        | cons c more => rw [(quotes_prefix_cons.1 hmark).1, List.head?_cons]
      rcases hmore with heq | hloose
      · obtain ⟨rest, rfl⟩ := List.head?_eq_some_iff.1 (heq.symm.trans hquote)
        exact ⟨rest, by rw [hd]; rfl⟩
      · cases hloose '"' hquote

/-- The token that starts with a character is told by its own characters on
its line, unless it is a block string. -/
theorem readToken_local {c : Char} {cs rest : List Char} {t : Token}
    (h : readToken c cs = .ok (t, rest)) :
    (∃ taken, cs = taken ++ rest ∧ InLine taken ∧
        ∀ more, Akin rest more → readToken c (taken ++ more) = .ok (t, more))
      ∨ ∃ inside, c = '"' ∧ cs = '"' :: '"' :: inside
        ∧ readBlockString [] [] inside = .ok (t, rest) := by
  cases hpunct : Punct.ofChar? c with
  | some p =>
      simp only [readToken, hpunct] at h ⊢
      cases h
      exact .inl ⟨[], rfl, InLine.nil, fun more _ => rfl⟩
  | none =>
  by_cases hquote : c = '"'
  · subst hquote
    by_cases hblock : quotes 2 <+: cs
    · obtain ⟨cs, rfl⟩ := hblock
      exact .inr ⟨cs, rfl, rfl, h⟩
    · rw [readToken_string fun rest heq => hblock ⟨rest, heq.symm⟩] at h
      obtain ⟨taken, rfl, hline, hagain⟩ := local_readString [] h
      have hsome : taken ≠ [] := by
        rintro rfl
        cases hagain [] (akin_nil rest)
      refine .inl ⟨taken, rfl, hline, fun more hmore =>
        (readToken_string fun rest heq => hblock ?_).trans (hagain more hmore)⟩
      exact quotes_prefix_of_akin hsome hmore ⟨rest, heq.symm⟩
  refine .inl ?_
  by_cases hnumber : (c.isDigit || c = '-') = true
  · simp only [readToken, hpunct, if_neg hquote, if_pos hnumber] at h ⊢
    obtain ⟨taken, heq, hline, hagain⟩ := local_readNumber h
    cases taken with
    | nil => cases hagain [] (akin_nil rest)
    | cons d taken =>
        cases heq
        exact ⟨taken, rfl, fun d hd => hline d (List.mem_cons_of_mem c hd), hagain⟩
  by_cases hname : isNameStart c = true
  · simp only [readToken, hpunct, if_neg hquote, if_neg hnumber, if_pos hname] at h ⊢
    cases h
    refine ⟨_, List.takeWhile_append_dropWhile.symm, inLine_takeWhile inside_isNamePart cs,
      fun more hmore => ?_⟩
    obtain ⟨htake, hdrop⟩ := takeWhile_append inside_isNamePart hmore
    rw [htake, hdrop]
  by_cases hdot : c = '.'
  · simp only [readToken, hpunct, if_neg hquote, if_neg hnumber, if_neg hname, if_pos hdot] at h ⊢
    split at h
    · cases h
      exact ⟨['.', '.'], rfl, (InLine.nil.cons (by decide)).cons (by decide), fun more _ => rfl⟩
    · cases h
  · simp only [readToken, hpunct, if_neg hquote, if_neg hnumber, if_neg hname, if_neg hdot] at h
    split at h
    · cases h
    · cases h

/-- A token is read again wherever its own characters stand. -/
theorem exists_taken {c : Char} {cs rest : List Char} {t : Token}
    (h : readToken c cs = .ok (t, rest)) :
    ∃ taken, cs = taken ++ rest ∧
      ∀ more, Akin rest more → readToken c (taken ++ more) = .ok (t, more) := by
  rcases readToken_local h with ⟨taken, hcs, -, hagain⟩ | ⟨inside, rfl, rfl, hblock⟩
  · exact ⟨taken, hcs, hagain⟩
  · obtain ⟨taken, rfl, -, hagain⟩ := readBlockString_local hblock
    exact ⟨'"' :: '"' :: taken, rfl, fun more _ => hagain more⟩

theorem readToken_length_le {c : Char} {cs rest : List Char} {t : Token}
    (h : readToken c cs = .ok (t, rest)) : rest.length ≤ cs.length := by
  obtain ⟨taken, rfl, -⟩ := exists_taken h
  rw [List.length_append]
  exact Nat.le_add_left _ _

/-- A token is read as before if the text goes on after it has stopped. -/
theorem readToken_append {c : Char} {cs rest : List Char} {t : Token}
    (h : readToken c cs = .ok (t, rest)) {more : List Char} (hmore : Stops more) :
    readToken c (cs ++ more) = .ok (t, rest ++ more) := by
  obtain ⟨taken, rfl, hagain⟩ := exists_taken h
  rw [List.append_assoc]
  exact hagain _ (akin_append hmore rest)

end ModelSchema.Graphql
