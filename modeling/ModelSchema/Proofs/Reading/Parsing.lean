/-
Parsers on tokens that are known. A parser looks at no more than one token
past what it takes, so what it makes of the tokens of a part does not
depend on what follows, as long as that does not go on with the part.
First the combinators, then the parts of documents from type references up
to fields.
-/
import ModelSchema.Graphql.Parser
import ModelSchema.Proofs.Reading.Declarations

namespace ModelSchema.Graphql.Parser

-- ========================================================= single tokens

/-- The state of a parser before these tokens, after which nothing is
wrong. -/
abbrev upon (ts : List Token) : Lexed := ⟨ts, none⟩

/-- The current token. -/
abbrev current (ts : List Token) : Token := ts.headD .eof

/-- An outcome after which these tokens are left. -/
def leaving {α : Type} (rest : List Token) (r : Except SyntaxFault α) :
    Except SyntaxFault (α × Lexed) :=
  r.map fun a => (a, upon rest)

section

variable {α β : Type}

theorem bind_eq_of_ok {p : Parser α} {s s' : Lexed} {a : α} (h : p s = .ok (a, s'))
    (f : α → Parser β) : (p >>= f) s = f a s' := by
  show (p s >>= fun r => f r.1 r.2) = _
  rw [h]
  rfl

theorem bind_eq_of_error {p : Parser α} {s : Lexed} {e : SyntaxFault} (h : p s = .error e)
    (f : α → Parser β) : (p >>= f) s = .error e := by
  show (p s >>= fun r => f r.1 r.2) = _
  rw [h]
  rfl

theorem bind_pure_eq {p : Parser α} {s : Lexed} {rest : List Token} {r : Except SyntaxFault α}
    (h : p s = leaving rest r) (f : α → β) :
    (p >>= fun a => pure (f a)) s = leaving rest (f <$> r) := by
  cases r with
  | error e => exact bind_eq_of_error h _
  | ok a => exact bind_eq_of_ok h _

theorem map_eq {p : Parser α} {s : Lexed} {rest : List Token} {r : Except SyntaxFault α}
    (h : p s = leaving rest r) (f : α → β) : (f <$> p) s = leaving rest (f <$> r) := by
  rw [map_eq_pure_bind]
  exact bind_pure_eq h f

theorem peek_eq (ts : List Token) : peek (upon ts) = .ok (current ts, upon ts) := rfl

theorem peek_cons (t : Token) (ts : List Token) :
    peek (upon (t :: ts)) = .ok (t, upon (t :: ts)) := rfl

theorem advance_eq (t : Token) (ts : List Token) : advance (upon (t :: ts)) = .ok ((), upon ts) := by
  cases ts <;> rfl

theorem lookahead_eq (t : Token) (ts : List Token) :
    lookahead (upon (t :: ts)) = .ok (current ts, upon (t :: ts)) := by
  cases ts <;> rfl

theorem mark_eq (p : Punct) (ts : List Token) :
    mark p (upon (.punct p :: ts)) = .ok ((), upon ts) := by
  unfold mark
  rw [bind_eq_of_ok (peek_cons _ _), if_pos rfl]
  exact advance_eq _ _

theorem optionalMark_eq_true (p : Punct) (ts : List Token) :
    optionalMark p (upon (.punct p :: ts)) = .ok (true, upon ts) := by
  unfold optionalMark
  rw [bind_eq_of_ok (peek_cons _ _), if_pos rfl, bind_eq_of_ok (advance_eq _ _)]
  rfl

theorem optionalMark_eq_false {p : Punct} {ts : List Token} (h : current ts ≠ .punct p) :
    optionalMark p (upon ts) = .ok (false, upon ts) := by
  unfold optionalMark
  rw [bind_eq_of_ok (peek_eq _), if_neg h]
  rfl

theorem name_eq (s : String) (ts : List Token) :
    name (upon (.name s :: ts)) = .ok (s, upon ts) := by
  unfold name
  rw [bind_eq_of_ok (peek_cons _ _)]
  show (advance >>= fun _ => pure s) _ = _
  rw [bind_eq_of_ok (advance_eq _ _)]
  rfl

theorem keyword_eq (word : String) (ts : List Token) :
    keyword word (upon (.name word :: ts)) = .ok ((), upon ts) := by
  unfold keyword
  rw [bind_eq_of_ok (peek_cons _ _), if_pos rfl]
  exact advance_eq _ _

theorem optionalKeyword_eq_false {word : String} {ts : List Token} (h : current ts ≠ .name word) :
    optionalKeyword word (upon ts) = .ok (false, upon ts) := by
  unfold optionalKeyword
  rw [bind_eq_of_ok (peek_eq _), if_neg h]
  rfl

/-- A description that is there is taken, and is else told to be none. -/
theorem description_eq (said : Option String) {ts : List Token}
    (h : (current ts).isString = false) :
    description (upon ((said.map .blockString).toList ++ ts)) = .ok (said, upon ts) := by
  unfold description
  cases said with
  | none =>
      show (peek >>= _) (upon ts) = _
      rw [bind_eq_of_ok (peek_eq _), if_neg (by rw [h]; exact Bool.false_ne_true)]
      rfl
  | some text =>
      show (peek >>= _) (upon (.blockString text :: ts)) = _
      have hstring : (Token.blockString text).isString = true := rfl
      rw [bind_eq_of_ok (peek_cons _ _), if_pos hstring, bind_eq_of_ok (advance_eq _ _)]
      rfl

-- =========================================================== repetition

/-- Whether a token starts an item: a name or a description. -/
def startsItem : Token → Bool
  | .name _ | .blockString _ => true
  | _ => false

/-- Whether an item ends before a token: another item starts there, or its
row is closed. -/
def endsItem : Token → Bool
  | .punct .braceR | .punct .parenR | .eof => true
  | t => startsItem t

theorem endsItem_of_startsItem {t : Token} (h : startsItem t = true) : endsItem t = true := by
  cases t <;> first | exact h | cases h

theorem ne_punct_of_startsItem {t : Token} (h : startsItem t = true) (p : Punct) : t ≠ .punct p := by
  rintro rfl
  cases h

/-- What an item ends before goes on with no part of it. -/
theorem ne_punct_of_endsItem {t : Token} (h : endsItem t = true) {p : Punct}
    (hp : p ≠ .braceR ∧ p ≠ .parenR) : t ≠ .punct p := by
  rintro rfl
  cases p with
  | braceR => exact hp.1 rfl
  | parenR => exact hp.2 rfl
  | _ => cases h

/-- A parser of items, which are each written in tokens of their own. -/
structure Items (item : Parser α) (tokens : β → List Token) (read : β → Except SyntaxFault α)
    (bs : List β) : Prop where
  starts : ∀ b ∈ bs, ∃ t ts, tokens b = t :: ts ∧ startsItem t = true
  reads : ∀ b ∈ bs, ∀ rest, endsItem (current rest) = true →
    item (upon (tokens b ++ rest)) = leaving rest (read b)

variable {item : Parser α} {tokens : β → List Token} {read : β → Except SyntaxFault α}
  {bs : List β}

theorem Items.tail {b : β} (h : Items item tokens read (b :: bs)) : Items item tokens read bs :=
  ⟨fun b' hb' => h.starts b' (List.mem_cons_of_mem b hb'),
    fun b' hb' => h.reads b' (List.mem_cons_of_mem b hb')⟩

/-- Where items start, or the row of items is closed, an item ends. -/
theorem Items.endsItem (h : Items item tokens read bs) {rest : List Token}
    (hrest : Parser.endsItem (current rest) = true) :
    Parser.endsItem (current (bs.flatMap tokens ++ rest)) = true := by
  cases bs with
  | nil => exact hrest
  | cons b bs =>
      obtain ⟨t, ts, hts, ht⟩ := h.starts b List.mem_cons_self
      rw [List.flatMap_cons, hts]
      exact endsItem_of_startsItem ht

/-- An item before others is read before them, unless it is refused. -/
theorem bind_item {items : Parser (List α)} {b : β} {first rest rest' : List Token}
    (hhead : item (upon first) = leaving rest (read b))
    (htail : items (upon rest) = leaving rest' (bs.mapM read)) :
    (item >>= fun x => items >>= fun xs => pure (x :: xs)) (upon first)
      = leaving rest' (read b >>= fun x => bs.mapM read >>= fun xs => pure (x :: xs)) := by
  cases hread : read b with
  | error e =>
      rw [hread] at hhead
      exact bind_eq_of_error hhead _
  | ok a =>
      rw [hread] at hhead
      rw [bind_eq_of_ok hhead]
      cases hrest : bs.mapM read with
      | error e =>
          rw [hrest] at htail
          exact bind_eq_of_error htail _
      | ok as =>
          rw [hrest] at htail
          rw [bind_eq_of_ok htail]
          rfl

/-- Items up to a closing mark are read one after another, up to the first
that is refused. -/
theorem upTo_eq {close : Punct} (hclose : close = .braceR ∨ close = .parenR)
    (h : Items item tokens read bs) {fuel : Nat} (hfuel : bs.length < fuel) (rest : List Token) :
    upTo close item fuel (upon (bs.flatMap tokens ++ .punct close :: rest))
      = leaving rest (bs.mapM read) := by
  have hends : Parser.endsItem (current (Token.punct close :: rest)) = true := by
    rcases hclose with rfl | rfl <;> rfl
  induction bs generalizing fuel with
  | nil =>
      cases fuel with
      | zero => cases hfuel
      | succ fuel =>
          unfold upTo
          rw [List.flatMap_nil, List.nil_append, bind_eq_of_ok (optionalMark_eq_true _ _)]
          rfl
  | cons b bs ih =>
      cases fuel with
      | zero => cases hfuel
      | succ fuel =>
          have htail := ih h.tail (Nat.lt_of_succ_lt_succ hfuel)
          have hopen : current (tokens b ++ (bs.flatMap tokens ++ .punct close :: rest))
              ≠ .punct close := by
            obtain ⟨t, ts, hts, ht⟩ := h.starts b List.mem_cons_self
            rw [hts]
            exact ne_punct_of_startsItem ht close
          have hhead := h.reads b List.mem_cons_self _ (h.tail.endsItem hends)
          rw [List.flatMap_cons, List.append_assoc, upTo, bind_eq_of_ok (optionalMark_eq_false hopen),
            List.mapM_cons]
          exact bind_item hhead htail

/-- One item or more between marks are read as items up to the closing
mark. -/
theorem many_eq {opening close : Punct} (hclose : close = .braceR ∨ close = .parenR)
    (hsome : bs ≠ []) (h : Items item tokens read bs) {fuel : Nat} (hfuel : bs.length < fuel)
    (rest : List Token) :
    many opening close item fuel
        (upon (.punct opening :: (bs.flatMap tokens ++ .punct close :: rest)))
      = leaving rest (bs.mapM read) := by
  cases bs with
  | nil => exact absurd rfl hsome
  | cons b bs =>
      have hends : Parser.endsItem (current (Token.punct close :: rest)) = true := by
        rcases hclose with rfl | rfl <;> rfl
      have hlength : bs.length < fuel := Nat.lt_of_succ_lt hfuel
      have htail := upTo_eq hclose h.tail hlength rest
      have hhead := h.reads b List.mem_cons_self _ (h.tail.endsItem hends)
      unfold many
      rw [bind_eq_of_ok (mark_eq _ _), List.flatMap_cons, List.append_assoc, List.mapM_cons]
      exact bind_item hhead htail

theorem optionalMany_eq {opening close : Punct} (hclose : close = .braceR ∨ close = .parenR)
    (hsome : bs ≠ []) (h : Items item tokens read bs) {fuel : Nat} (hfuel : bs.length < fuel)
    (rest : List Token) :
    optionalMany opening close item fuel
        (upon (.punct opening :: (bs.flatMap tokens ++ .punct close :: rest)))
      = leaving rest (bs.mapM read) := by
  unfold optionalMany
  rw [bind_eq_of_ok (peek_cons _ _), if_pos rfl]
  exact many_eq hclose hsome h hfuel rest

theorem optionalMany_eq_nil {opening close : Punct} {fuel : Nat} {ts : List Token}
    (h : current ts ≠ .punct opening) :
    optionalMany opening close item fuel (upon ts) = .ok ([], upon ts) := by
  unfold optionalMany
  rw [bind_eq_of_ok (peek_eq _), if_neg h]
  rfl

theorem following_eq {p : Punct} {names : List String} {fuel : Nat} (hfuel : names.length < fuel)
    {rest : List Token} (hrest : current rest ≠ .punct p) :
    following p name fuel (upon (names.flatMap (fun n => [.punct p, .name n]) ++ rest))
      = .ok (names, upon rest) := by
  induction names generalizing fuel with
  | nil =>
      cases fuel with
      | zero => cases hfuel
      | succ fuel =>
          unfold following
          rw [List.flatMap_nil, List.nil_append, bind_eq_of_ok (optionalMark_eq_false hrest)]
          rfl
  | cons n names ih =>
      cases fuel with
      | zero => cases hfuel
      | succ fuel =>
          have htail := ih (Nat.lt_of_succ_lt_succ hfuel)
          unfold following
          rw [List.flatMap_cons, List.append_assoc]
          show (optionalMark p >>= _) (upon (.punct p :: .name n :: (names.flatMap _ ++ rest))) = _
          rw [bind_eq_of_ok (optionalMark_eq_true _ _)]
          show (name >>= fun x => following p name fuel >>= fun xs => pure (x :: xs)) _ = _
          rw [bind_eq_of_ok (name_eq _ _), bind_eq_of_ok htail]
          rfl

theorem intercalate_names (p : Punct) (n : String) (names : List String) :
    [Token.punct p].intercalate ((n :: names).map fun n => [.name n])
      = .name n :: names.flatMap fun n => [.punct p, .name n] := by
  induction names generalizing n with
  | nil => simp
  | cons m names ih =>
      have htail := ih m
      rw [List.map_cons] at htail
      rw [List.map_cons, List.map_cons, List.intercalate_cons_cons, htail, List.flatMap_cons]
      rfl

-- What is repeated takes a token or more each time, so as many tokens as a
-- declaration has are fuel enough for all of its rows.
theorem length_le_flatMap {f : α → List β} {as : List α}
    (h : ∀ a ∈ as, 0 < (f a).length) : as.length ≤ (as.flatMap f).length := by
  induction as with
  | nil => exact Nat.zero_le _
  | cons a as ih =>
      have hhead := h a List.mem_cons_self
      have htail := ih fun a' ha' => h a' (List.mem_cons_of_mem a ha')
      rw [List.flatMap_cons, List.length_append, List.length_cons]
      omega

theorem length_le_flatMap_of_mem (f : α → List β) {a : α} {as : List α} (h : a ∈ as) :
    (f a).length ≤ (as.flatMap f).length := by
  obtain ⟨before, after, rfl⟩ := List.append_of_mem h
  simp only [List.flatMap_append, List.flatMap_cons, List.length_append]
  omega

theorem length_le_intercalate (p : Punct) (names : List String) :
    names.length ≤ ([Token.punct p].intercalate (names.map fun n => [.name n])).length := by
  cases names with
  | nil => exact Nat.zero_le _
  | cons n names =>
      have hrow : names.length ≤ (names.flatMap fun n => [Token.punct p, Token.name n]).length :=
        length_le_flatMap fun n _ => Nat.succ_pos _
      rw [intercalate_names, List.length_cons, List.length_cons]
      omega

/-- Names with a mark between them are read one after another. -/
theorem delimited_eq {p : Punct} {names : List String} (hsome : names ≠ []) {fuel : Nat}
    (hfuel : names.length < fuel) {rest : List Token} (hrest : current rest ≠ .punct p) :
    delimited p name fuel
        (upon ([Token.punct p].intercalate (names.map fun n => [.name n]) ++ rest))
      = .ok (names, upon rest) := by
  cases names with
  | nil => exact absurd rfl hsome
  | cons n names =>
      have hname : current (Token.name n :: (names.flatMap (fun n => [.punct p, .name n]) ++ rest))
          ≠ .punct p := by
        intro h
        cases h
      rw [intercalate_names, List.cons_append]
      unfold delimited
      rw [bind_eq_of_ok (optionalMark_eq_false hname), bind_eq_of_ok (name_eq _ _),
        bind_eq_of_ok (following_eq (Nat.lt_of_succ_lt hfuel) hrest)]
      rfl

end

-- ====================================================== types of fields

/-- A type reference without the mark at its end. -/
def unmarked : TypeExpr → TypeExpr
  | .nonNull inner => inner
  | t => t

theorem optionalNonNull_eq_nonNull (t : TypeExpr) (rest : List Token) :
    optionalNonNull t (upon (.punct .bang :: rest)) = .ok (.nonNull t, upon rest) := by
  unfold optionalNonNull
  rw [bind_eq_of_ok (optionalMark_eq_true _ _)]
  rfl

theorem optionalNonNull_eq_self (t : TypeExpr) {rest : List Token}
    (hrest : current rest ≠ .punct .bang) :
    optionalNonNull t (upon rest) = .ok (t, upon rest) := by
  unfold optionalNonNull
  rw [bind_eq_of_ok (optionalMark_eq_false hrest)]
  rfl

theorem typeExprWithin_named (room : Nat) (n : String) (rest : List Token) :
    typeExprWithin room (upon (.name n :: rest)) = optionalNonNull (.named n) (upon rest) := by
  have hname : current (Token.name n :: rest) ≠ .punct .bracketL := by
    intro h
    cases h
  cases room with
  | zero =>
      unfold typeExprWithin
      rw [bind_eq_of_ok (optionalMark_eq_false hname)]
      show (name >>= fun n => optionalNonNull (.named n)) _ = _
      rw [bind_eq_of_ok (name_eq _ _)]
  | succ room =>
      unfold typeExprWithin
      rw [bind_eq_of_ok (optionalMark_eq_false hname)]
      show (name >>= fun n => optionalNonNull (.named n)) _ = _
      rw [bind_eq_of_ok (name_eq _ _)]

theorem typeExprWithin_list {room : Nat} {item : TypeExpr} {ts rest : List Token}
    (h : typeExprWithin room (upon ts) = .ok (item, upon (.punct .bracketR :: rest))) :
    typeExprWithin (room + 1) (upon (.punct .bracketL :: ts))
      = optionalNonNull (.list item) (upon rest) := by
  unfold typeExprWithin
  rw [bind_eq_of_ok (optionalMark_eq_true _ _)]
  show (typeExprWithin room >>= fun item => mark .bracketR >>= fun _ =>
    optionalNonNull (.list item)) _ = _
  rw [bind_eq_of_ok h, bind_eq_of_ok (mark_eq _ _)]

/-- A type reference is read up to the mark at its end, which is then
looked for. -/
theorem typeExprWithin_unmarked {t : TypeExpr} (h : t.Plain) {room : Nat} (hroom : t.depth ≤ room)
    (rest : List Token) :
    typeExprWithin room (upon ((unmarked t).tokens ++ rest))
      = optionalNonNull (unmarked t) (upon rest) := by
  induction t generalizing room rest with
  | named n => exact typeExprWithin_named room n rest
  | list item ih =>
      cases room with
      | zero => cases hroom
      | succ room =>
          have hitem := fun rest => ih h (Nat.le_of_succ_le_succ hroom) rest
          show typeExprWithin (room + 1)
            (upon (.punct .bracketL :: (item.tokens ++ [.punct .bracketR] ++ rest))) = _
          refine typeExprWithin_list ?_
          rw [List.append_assoc]
          cases item with
          | nonNull inner =>
              show typeExprWithin room (upon ((inner.tokens ++ [.punct .bang]) ++ _)) = _
              rw [List.append_assoc]
              exact (hitem _).trans (optionalNonNull_eq_nonNull inner _)
          | named n => exact (hitem _).trans (optionalNonNull_eq_self _ (fun hbang => by cases hbang))
          | list inner =>
              exact (hitem _).trans (optionalNonNull_eq_self _ (fun hbang => by cases hbang))
  | nonNull inner ih =>
      have hinner : unmarked inner = inner := by
        cases inner with
        | nonNull _ => cases h.1
        | _ => rfl
      have hread := ih h.2 hroom rest
      rw [hinner] at hread
      exact hread

/-- A type reference is read as itself, unless a mark comes after it. -/
theorem typeExpr_eq {t : TypeExpr} (h : t.Readable)
    {rest : List Token} (hrest : current rest ≠ .punct .bang) :
    typeExpr (upon (t.tokens ++ rest)) = .ok (t, upon rest) := by
  have hread := fun rest => typeExprWithin_unmarked h.plain h.depth rest
  unfold typeExpr
  cases t with
  | nonNull inner =>
      show typeExprWithin _ (upon ((inner.tokens ++ [.punct .bang]) ++ rest)) = _
      rw [List.append_assoc]
      exact (hread _).trans (optionalNonNull_eq_nonNull inner rest)
  | named n => exact (hread _).trans (optionalNonNull_eq_self _ hrest)
  | list item => exact (hread _).trans (optionalNonNull_eq_self _ hrest)

-- =========================================================== directives

/-- The directive that tells a reason of a deprecation. -/
def deprecatedDirective (reason : String) : Directive :=
  ⟨"deprecated", [("reason", .string reason)]⟩

theorem directives_eq_nil {constant : Bool} {room fuel bound : Nat} (hbound : 0 < bound)
    {ts : List Token} (h : current ts ≠ .punct .at) :
    directives constant room fuel bound (upon ts) = .ok ([], upon ts) := by
  cases bound with
  | zero => cases hbound
  | succ bound =>
      unfold directives
      rw [bind_eq_of_ok (peek_eq _), if_neg h]
      rfl

theorem constDirectives_eq_nil {fuel : Nat} (hfuel : 0 < fuel) {ts : List Token}
    (h : current ts ≠ .punct .at) : constDirectives fuel (upon ts) = .ok ([], upon ts) :=
  directives_eq_nil hfuel h

theorem literal_eq_string (constant : Bool) (fuel room : Nat) (s : String) (rest : List Token) :
    literal constant fuel room (upon (.string s :: rest)) = .ok (.string s, upon rest) := by
  have hplain : plainLiteral constant (upon (.string s :: rest)) = .ok (.string s, upon rest) := by
    unfold plainLiteral
    rw [bind_eq_of_ok (peek_cons _ _)]
    show (advance >>= fun _ => pure (Literal.string s)) _ = _
    rw [bind_eq_of_ok (advance_eq _ _)]
    rfl
  cases room with
  | zero => exact hplain
  | succ room => exact hplain

/-- The tokens of a deprecation are read as its directive. -/
theorem directive_eq_deprecated {fuel : Nat} (hfuel : 1 < fuel) (reason : String)
    (rest : List Token) :
    directive true fuel maxNesting (upon (.punct .at :: .name "deprecated" :: .punct .parenL
        :: .name "reason" :: .punct .colon :: .string reason :: .punct .parenR :: rest))
      = .ok (deprecatedDirective reason, upon rest) := by
  let tokens : String → List Token := fun r => [.name "reason", .punct .colon, .string r]
  have hitems : Items (do
      let key ← name
      mark .colon
      return (key, ← literal true fuel maxNesting)) tokens
      (fun r => .ok ("reason", Literal.string r)) [reason] := by
    refine ⟨fun r _ => ⟨_, _, rfl, rfl⟩, fun r _ rest _ => ?_⟩
    show (name >>= _) (upon (.name "reason" :: .punct .colon :: .string r :: rest)) = _
    rw [bind_eq_of_ok (name_eq _ _), bind_eq_of_ok (mark_eq _ _),
      bind_eq_of_ok (literal_eq_string true fuel maxNesting r rest)]
    rfl
  have harguments : optionalMany .parenL .parenR _ fuel
      (upon (.punct .parenL :: ([reason].flatMap tokens ++ .punct .parenR :: rest))) = _ :=
    optionalMany_eq (Or.inr rfl) (List.cons_ne_nil _ _) hitems hfuel rest
  unfold directive
  rw [bind_eq_of_ok (mark_eq _ _), bind_eq_of_ok (name_eq _ _)]
  exact bind_eq_of_ok harguments _

-- ============================================================ whole texts

/-- What a parser makes of a text, it makes of its tokens. -/
theorem run_eq {α : Type} {s : String} {ts : List Token} (h : lex s = upon ts)
    (parser : Nat → Parser α) :
    run s parser = (parser (ts.length + 1) (upon ts)).map Prod.fst := by
  unfold run
  rw [h]
  cases ts <;> rfl

end ModelSchema.Graphql.Parser
