/-
Parsers on tokens after which more tokens come. What a parser makes of the
tokens it takes is the same if more follow them, as long as the first of
these does not go on with the part (`Follows`). What may not follow is told
by the outcome: a mark that may come last is no matter if it was there. A
parser that is run in a longer document also has more fuel, so the relation
is between two parsers, the second of which is the first with more of it.

There is one lemma for each combinator. In front of a parser that needs a
token (`Needs`) nothing has to be asked of what follows, and within brackets
nothing is asked at all.
-/
import ModelSchema.Proofs.Reading.Parsing
import ModelSchema.Proofs.Run

namespace ModelSchema.Graphql.Parser

variable {α β : Type}

-- ================================================================= states

/-- What a parser leaves of a state: tokens at its end, and the fault after
them, which comes up if the last token is passed. -/
structure Keeps (s s' : Lexed) : Prop where
  suffix : s'.tokens <:+ s.tokens
  fault : s'.fault = s.fault
  guarded : s.fault ≠ none → s.tokens ≠ [] → s'.tokens ≠ []

namespace Keeps

variable {s s' s'' : Lexed}

theorem refl (s : Lexed) : Keeps s s := ⟨List.suffix_rfl, rfl, fun _ h => h⟩

theorem trans (h : Keeps s s') (h' : Keeps s' s'') : Keeps s s'' where
  suffix := h'.suffix.trans h.suffix
  fault := h'.fault.trans h.fault
  guarded hfault hsome := h'.guarded (h.fault ▸ hfault) (h.guarded hfault hsome)

/-- Nothing is left after nothing. -/
theorem eq_of_nil {fault : Option SyntaxFault} (h : Keeps ⟨[], fault⟩ s) : s = ⟨[], fault⟩ := by
  have htokens : s.tokens = [] := List.suffix_nil.1 h.suffix
  have hfault : s.fault = fault := h.fault
  cases s
  cases htokens
  cases hfault
  rfl

end Keeps

-- ============================================================== outcomes

theorem bind_ok {p : Parser α} {f : α → Parser β} {s : Lexed} {r : β × Lexed} :
    (p >>= f) s = .ok r ↔ ∃ a s', p s = .ok (a, s') ∧ f a s' = .ok r := by
  show (p s >>= fun r => f r.1 r.2) = _ ↔ _
  rw [bind_eq_ok]
  exact ⟨fun ⟨r, hp, hf⟩ => ⟨r.1, r.2, hp, hf⟩, fun ⟨a, s', hp, hf⟩ => ⟨(a, s'), hp, hf⟩⟩

/-- From this state a parser has the same outcome if more tokens follow,
unless it takes all that are there and the first of the others goes on with
the part. -/
def FollowsAt (stop : α → Token → Prop) (p p' : Parser α) (s : Lexed) : Prop :=
  ∀ ⦃a s'⦄, p s = .ok (a, s') → Keeps s s' ∧
    ∀ more, (s'.tokens = [] → stop a (current more)) →
      p' (upon (s.tokens ++ more)) = .ok (a, upon (s'.tokens ++ more))

/-- From every state a parser has the same outcome if more tokens follow that
do not go on with the part. -/
def Follows (stop : α → Token → Prop) (p p' : Parser α) : Prop := ∀ s, FollowsAt stop p p' s

/-- The same whatever tokens follow. -/
abbrev Free (p p' : Parser α) : Prop := Follows (fun _ _ => True) p p'

/-- The same where tokens are left. -/
abbrev Within (p p' : Parser α) : Prop := Follows (fun _ _ => False) p p'

/-- A parser that is refused at the end of a text. -/
def Needs (p : Parser α) : Prop := ∀ fault r, p ⟨[], fault⟩ ≠ .ok r

section

variable {p p' : Parser α} {f f' : α → Parser β} {stop stop' : α → Token → Prop}
  {stop₂ : β → Token → Prop} {s : Lexed}

theorem FollowsAt.mono (h : FollowsAt stop p p' s) (hstop : ∀ a t, stop' a t → stop a t) :
    FollowsAt stop' p p' s := by
  intro a s' hp
  obtain ⟨hkeeps, happend⟩ := h hp
  exact ⟨hkeeps, fun more hmore => happend more fun hnil => hstop _ _ (hmore hnil)⟩

theorem Follows.mono (h : Follows stop p p') (hstop : ∀ a t, stop' a t → stop a t) :
    Follows stop' p p' := fun s => (h s).mono hstop

theorem Follows.within (h : Follows stop p p') : Within p p' := h.mono fun _ _ => False.elim

theorem Free.follows (h : Free p p') : Follows stop p p' := h.mono fun _ _ _ => trivial

theorem followsAt_of_error {e : SyntaxFault} (h : p s = .error e) : FollowsAt stop p p' s := by
  intro a s' hp
  rw [h] at hp
  cases hp

theorem follows_pure (a : α) : Follows stop (pure a) (pure a) := by
  intro s b s' h
  cases h
  exact ⟨Keeps.refl s, fun more _ => rfl⟩

theorem follows_throw (e : SyntaxFault) : Follows stop (throw e) p' :=
  fun _ => followsAt_of_error rfl

theorem follows_unexpected : Follows stop unexpected p' := fun _ => followsAt_of_error rfl

theorem follows_ite {c : Prop} [Decidable c] {q q' : Parser α} (h : c → Follows stop p p')
    (h' : ¬ c → Follows stop q q') :
    Follows stop (if c then p else q) (if c then p' else q') := by
  by_cases hc : c
  · rw [if_pos hc, if_pos hc]
    exact h hc
  · rw [if_neg hc, if_neg hc]
    exact h' hc

/-- A parser and another one after it. Where the first has taken all tokens,
what follows the second one must not go on with the first. -/
theorem FollowsAt.bind (h : FollowsAt stop p p' s)
    (hf : ∀ a s', p s = .ok (a, s') → FollowsAt stop₂ (f a) (f' a) s')
    (hstop : ∀ a b fault s', f a ⟨[], fault⟩ = .ok (b, s') → ∀ t, stop₂ b t → stop a t) :
    FollowsAt stop₂ (p >>= f) (p' >>= f') s := by
  intro b s'' hbind
  obtain ⟨a, s', hp, hbind⟩ := bind_ok.1 hbind
  obtain ⟨hkeeps, happend⟩ := h hp
  obtain ⟨hkeeps', happend'⟩ := hf a s' hp hbind
  refine ⟨hkeeps.trans hkeeps', fun more hmore => ?_⟩
  have hbefore : s'.tokens = [] → stop a (current more) := by
    intro hnil
    obtain ⟨tokens, fault⟩ := s'
    cases hnil
    exact hstop a b fault s'' hbind _ (hmore (hkeeps'.eq_of_nil ▸ rfl))
  rw [bind_eq_of_ok (happend more hbefore)]
  exact happend' more hmore

theorem Follows.bind (h : Follows stop p p') (hf : ∀ a, Follows stop₂ (f a) (f' a))
    (hstop : ∀ a b fault s', f a ⟨[], fault⟩ = .ok (b, s') → ∀ t, stop₂ b t → stop a t) :
    Follows stop₂ (p >>= f) (p' >>= f') := fun s => (h s).bind (fun a s' _ => hf a s') hstop

theorem Free.bind (h : Free p p') (hf : ∀ a, Follows stop₂ (f a) (f' a)) :
    Follows stop₂ (p >>= f) (p' >>= f') := Follows.bind h hf fun _ _ _ _ _ _ _ => trivial

theorem Follows.bind_needs (h : Follows stop p p') (hf : ∀ a, Follows stop₂ (f a) (f' a))
    (hneeds : ∀ a, Needs (f a)) : Follows stop₂ (p >>= f) (p' >>= f') :=
  h.bind hf fun a _ fault _ hok => absurd hok (hneeds a fault _)

theorem Within.bind (h : Follows stop p p') (hf : ∀ a, Within (f a) (f' a)) :
    Within (p >>= f) (p' >>= f') := h.bind hf fun _ _ _ _ _ _ => False.elim

theorem Follows.map (h : Follows stop p p') (g : α → β)
    (hstop : ∀ a t, stop₂ (g a) t → stop a t) : Follows stop₂ (g <$> p) (g <$> p') := by
  rw [map_eq_pure_bind, map_eq_pure_bind]
  refine h.bind (fun a => follows_pure (g a)) fun a b fault s' hok t ht => ?_
  cases hok
  exact hstop a t ht

theorem Free.map (h : Free p p') (g : α → β) : Free (g <$> p) (g <$> p') :=
  Follows.map h g fun _ _ _ => trivial

theorem Needs.bind (h : Needs p) (f : α → Parser β) : Needs (p >>= f) := by
  intro fault r hok
  obtain ⟨a, s', hp, -⟩ := bind_ok.1 hok
  exact h fault _ hp

theorem Follows.needs_bind (h : Follows stop p p') (hf : ∀ a, Needs (f a)) : Needs (p >>= f) := by
  intro fault r hok
  obtain ⟨a, s', hp, hok⟩ := bind_ok.1 hok
  rw [(h _ hp).1.eq_of_nil] at hok
  exact hf a fault _ hok

theorem needs_throw (e : SyntaxFault) : Needs (throw e : Parser α) := fun _ _ h => nomatch h

theorem needs_unexpected : Needs (unexpected : Parser α) := fun _ _ h => nomatch h

end

-- ========================================================= single tokens

section

variable {stop : α → Token → Prop} {f f' : Token → Parser α}

/-- A parser that goes by the current token; at the end of the text it takes
none. -/
theorem follows_peek_bind (hcons : ∀ t ts fault, FollowsAt stop (f t) (f' t) ⟨t :: ts, fault⟩)
    (hnil : ∀ fault a s', f .eof ⟨[], fault⟩ = .ok (a, s') → s' = ⟨[], fault⟩ ∧
      ∀ more, stop a (current more) → f' (current more) (upon more) = .ok (a, upon more)) :
    Follows stop (peek >>= f) (peek >>= f') := by
  rintro ⟨tokens, fault⟩ a s' h
  cases tokens with
  | nil =>
      obtain ⟨rfl, happend⟩ := hnil fault a s' h
      exact ⟨Keeps.refl _, fun more hmore => happend more (hmore rfl)⟩
  | cons t ts => exact hcons t ts fault h

/-- The same for one that needs a token. -/
theorem follows_peek_bind_needs
    (hcons : ∀ t ts fault, FollowsAt stop (f t) (f' t) ⟨t :: ts, fault⟩) (hnil : Needs (f .eof)) :
    Follows stop (peek >>= f) (peek >>= f') :=
  follows_peek_bind hcons fun fault _ _ hok => absurd hok (hnil fault _)

theorem needs_peek_bind (hnil : Needs (f .eof)) : Needs (peek >>= f) := hnil

theorem follows_peek : Follows (fun t u => u = t) peek peek := by
  rintro ⟨tokens, fault⟩ t s' h
  cases h
  refine ⟨Keeps.refl _, fun more hmore => ?_⟩
  cases tokens with
  | nil => exact congrArg (fun u => Except.ok (u, upon more)) (hmore rfl)
  | cons t ts => rfl

/-- A parser that goes by the token after the current one, and is refused
without it. -/
theorem follows_lookahead_bind
    (hcons : ∀ t u ts fault, FollowsAt stop (f u) (f' u) ⟨t :: u :: ts, fault⟩)
    (hnil : ∀ s r, f .eof s ≠ .ok r) : Follows stop (lookahead >>= f) (lookahead >>= f') := by
  rintro ⟨tokens, fault⟩ a s' h
  match tokens with
  | [] => exact absurd h (hnil _ _)
  | [t] =>
      cases fault with
      | none => exact absurd h (hnil _ _)
      | some e => cases h
  | t :: u :: ts => exact hcons t u ts fault h

section

variable {t : Token} {ts : List Token} {fault : Option SyntaxFault}

/-- The last token is passed if nothing is wrong after it. -/
theorem advance_ok {r : Unit × Lexed} (h : advance ⟨t :: ts, fault⟩ = .ok r) :
    r = ((), ⟨ts, fault⟩) ∧ (fault ≠ none → ts ≠ []) := by
  cases ts with
  | nil =>
      cases fault with
      | none =>
          cases h
          exact ⟨rfl, fun hfault => absurd rfl hfault⟩
      | some e => cases h
  | cons u ts =>
      cases h
      exact ⟨rfl, fun _ => List.cons_ne_nil _ _⟩

/-- A token that is there is passed, whatever follows. -/
theorem followsAt_advance {stop : Unit → Token → Prop} :
    FollowsAt stop advance advance ⟨t :: ts, fault⟩ := by
  intro a s' h
  obtain ⟨hrest, hguard⟩ := advance_ok h
  cases hrest
  exact ⟨⟨List.suffix_cons t ts, rfl, fun hfault _ => hguard hfault⟩,
    fun more _ => advance_eq t (ts ++ more)⟩

theorem followsAt_advance_bind {p p' : Parser α} (h : FollowsAt stop p p' ⟨ts, fault⟩) :
    FollowsAt stop (advance >>= fun _ => p) (advance >>= fun _ => p') ⟨t :: ts, fault⟩ := by
  have hadvance : FollowsAt (fun _ _ => True) advance advance ⟨t :: ts, fault⟩ := followsAt_advance
  refine hadvance.bind (fun a s' hok => ?_) fun _ _ _ _ _ _ _ => trivial
  cases (advance_ok hok).1
  exact h

end

end

section

variable {u : Token}

/-- A token that has to be there. -/
theorem needs_required (hu : u ≠ .eof) (e : Token → SyntaxFault) :
    Needs (peek >>= fun t => if t = u then advance else throw (e t)) := by
  refine needs_peek_bind ?_
  rw [if_neg hu.symm]
  exact needs_throw _

theorem follows_required (hu : u ≠ .eof) (e : Token → SyntaxFault) :
    Free (peek >>= fun t => if t = u then advance else throw (e t))
      (peek >>= fun t => if t = u then advance else throw (e t)) := by
  refine follows_peek_bind_needs (fun t ts fault => ?_) (needs_required hu e)
  by_cases ht : t = u
  · rw [if_pos ht]
    exact followsAt_advance
  · rw [if_neg ht]
    exact follows_throw _ _

/-- A token that may be there. If it was not, it must not follow. -/
theorem follows_optional {u : Token} (hu : u ≠ .eof) :
    Follows (fun b t => b = false → t ≠ u)
      (peek >>= fun t => if t = u then (do advance; return true) else return false)
      (peek >>= fun t => if t = u then (do advance; return true) else return false) := by
  refine follows_peek_bind (fun t ts fault => ?_) fun fault b s' hok => ?_
  · by_cases ht : t = u
    · rw [if_pos ht]
      exact followsAt_advance_bind (follows_pure true _)
    · rw [if_neg ht]
      exact follows_pure false _
  · rw [if_neg hu.symm] at hok
    cases hok
    refine ⟨rfl, fun more hmore => ?_⟩
    rw [if_neg (hmore rfl)]
    rfl

theorem follows_optionalMark (m : Punct) :
    Follows (fun b t => b = false → t ≠ .punct m) (optionalMark m) (optionalMark m) :=
  follows_optional Token.noConfusion

theorem follows_optionalKeyword (word : String) :
    Follows (fun b t => b = false → t ≠ .name word) (optionalKeyword word) (optionalKeyword word) :=
  follows_optional Token.noConfusion

end

theorem follows_mark (m : Punct) : Free (mark m) (mark m) :=
  follows_required (u := .punct m) Token.noConfusion _

theorem needs_mark (m : Punct) : Needs (mark m) :=
  needs_required (u := .punct m) Token.noConfusion _

theorem follows_keyword (word : String) : Free (keyword word) (keyword word) :=
  follows_required (u := .name word) Token.noConfusion _

theorem needs_keyword (word : String) : Needs (keyword word) :=
  needs_required (u := .name word) Token.noConfusion _

theorem needs_name : Needs name := fun _ _ h => nomatch h

theorem follows_name : Free name name := by
  refine follows_peek_bind_needs (fun t ts fault => ?_) needs_name
  cases t with
  | name s => exact followsAt_advance_bind (follows_pure s _)
  | _ => exact follows_throw _ _

/-- If there was no description, none must follow. -/
theorem follows_description :
    Follows (fun said t => said = none → t.isString = false) description description := by
  refine follows_peek_bind (fun t ts fault => ?_) fun fault said s' hok => ?_
  · by_cases ht : t.isString = true
    · rw [if_pos ht]
      exact followsAt_advance_bind (follows_pure t.value? _)
    · rw [if_neg ht]
      exact follows_pure none _
  · cases hok
    refine ⟨rfl, fun more hmore => ?_⟩
    rw [if_neg (by rw [hmore rfl]; exact Bool.false_ne_true)]
    rfl

-- =========================================================== repetition

section

variable {item item' : Parser α} {stop : α → Token → Prop} {fuel fuel' : Nat}

theorem needs_upTo (h : Follows stop item item') (close : Punct) (fuel : Nat) :
    Needs (upTo close item fuel) := by
  induction fuel with
  | zero => exact needs_unexpected
  | succ fuel ih =>
      have hrest : Needs (item >>= fun x => upTo close item fuel >>= fun xs => pure (x :: xs)) :=
        h.needs_bind fun x => ih.bind _
      exact fun fault r => hrest fault r

/-- Items up to a closing mark end there. -/
theorem follows_upTo (h : Follows stop item item') (close : Punct) (hle : fuel ≤ fuel') :
    Free (upTo close item fuel) (upTo close item' fuel') := by
  induction fuel generalizing fuel' with
  | zero => exact follows_unexpected
  | succ fuel ih =>
      cases fuel' with
      | zero => cases hle
      | succ fuel' =>
          have hitems : Free (upTo close item fuel) (upTo close item' fuel') :=
            ih (Nat.le_of_succ_le_succ hle)
          have hrest : Needs (item >>= fun x => upTo close item fuel >>= fun xs => pure (x :: xs)) :=
            h.needs_bind fun x => (needs_upTo h close fuel).bind _
          refine (follows_optionalMark close).bind (fun b => ?_) fun b xs fault s' hok t _ => ?_
          · cases b with
            | true => exact follows_pure []
            | false =>
                exact h.bind_needs (fun x => hitems.bind fun xs => follows_pure (x :: xs))
                  fun x => (needs_upTo h close fuel).bind _
          · cases b with
            | true => exact Bool.noConfusion
            | false => exact absurd hok (hrest fault _)

theorem needs_many (opening close : Punct) (item : Parser α) (fuel : Nat) :
    Needs (many opening close item fuel) := (needs_mark opening).bind _

theorem follows_many (h : Follows stop item item') (opening close : Punct) (hle : fuel ≤ fuel') :
    Free (many opening close item fuel) (many opening close item' fuel') :=
  (follows_mark opening).bind fun _ =>
    h.bind_needs (fun x => (follows_upTo h close hle).bind fun xs => follows_pure (x :: xs))
      fun _ => (needs_upTo h close fuel).bind _

theorem follows_any (h : Follows stop item item') (opening close : Punct) (hle : fuel ≤ fuel') :
    Free (any opening close item fuel) (any opening close item' fuel') :=
  (follows_mark opening).bind fun _ => follows_upTo h close hle

/-- If no items were there, their opening mark must not follow. -/
theorem follows_optionalMany (h : Follows stop item item') (opening close : Punct)
    (hle : fuel ≤ fuel') :
    Follows (fun xs t => xs = [] → t ≠ .punct opening) (optionalMany opening close item fuel)
      (optionalMany opening close item' fuel') := by
  refine follows_peek_bind (fun t ts fault => ?_) fun fault xs s' hok => ?_
  · by_cases ht : t = .punct opening
    · rw [if_pos ht, if_pos ht]
      exact (follows_many h opening close hle).follows _
    · rw [if_neg ht, if_neg ht]
      exact follows_pure [] _
  · cases hok
    refine ⟨rfl, fun more hmore => ?_⟩
    rw [if_neg (hmore rfl)]
    rfl

/-- Items that each follow a mark: it must not follow once more. -/
theorem follows_following (h : Free item item') (m : Punct) (hle : fuel ≤ fuel') :
    Follows (fun _ t => t ≠ .punct m) (following m item fuel) (following m item' fuel') := by
  induction fuel generalizing fuel' with
  | zero => exact follows_unexpected
  | succ fuel ih =>
      cases fuel' with
      | zero => cases hle
      | succ fuel' =>
          refine (follows_optionalMark m).bind (fun b => ?_) fun b xs fault s' hok t ht _ => ht
          cases b with
          | false => exact follows_pure []
          | true =>
              have hitems := ih (Nat.le_of_succ_le_succ hle)
              exact Free.bind h fun x =>
                hitems.bind (fun xs => follows_pure (x :: xs)) fun xs _ _ _ _ t ht => ht

theorem follows_delimited (h : Free item item') (hneeds : Needs item) (m : Punct)
    (hle : fuel ≤ fuel') :
    Follows (fun _ t => t ≠ .punct m) (delimited m item fuel) (delimited m item' fuel') :=
  (follows_optionalMark m).bind_needs
    (fun _ => Free.bind h fun x =>
      (follows_following h m hle).bind (fun xs => follows_pure (x :: xs)) fun _ _ _ _ _ _ ht => ht)
    fun _ => hneeds.bind _

end

end ModelSchema.Graphql.Parser
