/-
Definitions one after another. A definition is known by its keyword, and it
is read as before if more tokens follow, as long as the first of them goes on
with no part of it (`follows_definition`). One that may have a body but has
none is refused if a selection follows instead (`refusesAt_definition`): the
brace is taken for its body. So a row of definitions may be followed by
another row (`Defines.append`), unless its last definition still waits for
its body (`Defines.not_append`). The object types that it defines have names
that are among its tokens (`Defines.name_mem`).
-/
import ModelSchema.Proofs.Joining.Parts

namespace ModelSchema.Graphql.Parser

variable {fuel fuel' : Nat}

-- =========================================================== definitions

theorem follows_directiveLocation : Free directiveLocation directiveLocation := by
  refine follows_peek_bind_needs (fun t ts fault => ?_) fun _ _ h => nomatch h
  exact Free.bind follows_name
    (fun word => follows_ite (fun _ => follows_pure word) fun _ => follows_throw _) _

theorem needs_directiveLocation : Needs directiveLocation := fun _ _ h => nomatch h

theorem follows_directiveTail (hle : fuel ≤ fuel') :
    Follows (fun _ t => t ≠ .punct .pipe) (directiveTail fuel) (directiveTail fuel') := by
  refine (follows_mark .at).bind fun _ => follows_name.bind fun name => ?_
  refine (follows_argumentDefinitions hle).bind_needs (fun args => ?_) fun _ =>
    (follows_optionalKeyword "repeatable").needs_bind fun _ => (needs_keyword "on").bind _
  refine (follows_optionalKeyword "repeatable").bind_needs (fun repeatable => ?_) fun _ =>
    (needs_keyword "on").bind _
  refine (follows_keyword "on").bind fun _ => ?_
  exact (follows_delimited follows_directiveLocation needs_directiveLocation .pipe hle).bind
    (fun locations => follows_pure _) fun _ _ _ _ _ _ ht => ht

theorem follows_typeSystemDefinition (word : String) (hle : fuel ≤ fuel') :
    Follows (fun d t => Apart d.awaitsBody t) (typeSystemDefinition word fuel)
      (typeSystemDefinition word fuel') := by
  refine follows_description.bind_needs (fun said => ?_) fun _ => (needs_keyword word).bind _
  refine (follows_keyword word).bind fun _ => ?_
  cases typeKeyword? word with
  | some kind =>
      refine (follows_typeTail said kind hle).bind (fun t => follows_pure _)
        fun t d fault s' hok u hu => ?_
      cases hok
      exact hu
  | none =>
      refine follows_ite (fun _ => ?_) (fun _ => ?_)
      · exact (follows_directiveTail hle).mono fun d t ht => ht.1.ne Punct.noConfusion
      · exact (follows_constDirectives hle).bind_needs
          (fun ds => (follows_many follows_rootType .braceL .braceR hle).bind fun roots =>
            follows_pure _)
          fun _ => (needs_many .braceL .braceR rootType fuel).bind _

/-- An extension of a type. -/
theorem follows_extension (hle : fuel ≤ fuel') :
    Follows (fun d t => Apart d.awaitsBody t) (extension fuel) (extension fuel') := by
  refine follows_lookahead_bind (fun t u ts fault => ?_) fun s r h => nomatch h
  cases u with
  | name word =>
      dsimp only
      cases typeKeyword? word with
      | some kind =>
          refine followsAt_advance_bind (followsAt_advance_bind ?_)
          refine (follows_typeTail none kind hle).bind
            (fun t => follows_ite (fun _ => follows_unexpected) fun _ => follows_pure _)
            (fun t d fault s' hok u hu => ?_) _
          split at hok
          · cases hok
          · cases hok
            exact hu
      | none =>
          by_cases hword : word = "schema"
          · rw [if_pos hword, if_pos hword]
            refine followsAt_advance_bind (followsAt_advance_bind ?_)
            have hroots := follows_optionalMany follows_rootType .braceL .braceR hle
            refine (follows_constDirectives hle).bind (fun ds => hroots.bind
              (fun roots => follows_ite (fun _ => follows_unexpected) fun _ => follows_pure _)
              fun roots d fault s' hok u hu hnone hbrace => ?_)
              (fun _ _ _ _ _ _ ht => ht.1.endsDirectives) _
            split at hok
            · cases hok
            · cases hok
              have hawaits : roots.isEmpty = false := hu.2 hbrace
              rw [hnone] at hawaits
              cases hawaits
          · rw [if_neg hword, if_neg hword]
            exact follows_throw _ _
  | _ => exact follows_throw _ _

/-- A definition whose keyword is known. -/
def definitionFrom (described : Bool) (key : Token) (fuel : Nat) : Parser Definition :=
  match key with
  | .name word =>
      if startsTypeSystem word then typeSystemDefinition word fuel
      else if (OperationKind.ofWord? word).isSome then operation fuel
      else if word = "fragment" then fragment fuel
      else if described then throw .describedOther
      else if word = "extend" then extension fuel
      else throw (.unexpected key)
  | _ => throw (.unexpected key)

/-- A definition is known by its keyword. -/
theorem definition_eq_from (fuel : Nat) :
    definition fuel = (peek >>= fun t =>
      if t = .punct .braceL then
        selectionSet fuel >>= fun sub => pure (.operation .query [] [] sub)
      else if t.isString then
        lookahead >>= fun key =>
          if key = .punct .braceL then throw .describedShorthand else definitionFrom true key fuel
      else definitionFrom false t fuel) := by
  unfold definition
  refine congrArg (peek >>= ·) (funext fun t => ?_)
  by_cases hbrace : t = .punct .braceL
  · rw [if_pos hbrace, if_pos hbrace]
  rw [if_neg hbrace, if_neg hbrace]
  cases hstring : t.isString with
  | true =>
      refine congrArg (lookahead >>= ·) (funext fun key => ?_)
      by_cases hkey : key = .punct .braceL
      · subst hkey
        rfl
      · have hplain : ¬ (true && decide (key = .punct .braceL)) = true := by simpa using hkey
        dsimp only
        rw [if_neg hkey, if_neg hplain]
        rfl
  | false => rfl

/-- An object type has the name that comes first after its keyword. -/
theorem typeTail_object {said : Option String} {name : String} {ts : List Token} {s : Lexed}
    {t : TypeDefinition} (h : typeTail said .object fuel (upon (.name name :: ts)) = .ok (t, s)) :
    ∃ above fields, t.name = name ∧ t.body = .object above fields := by
  unfold typeTail at h
  obtain ⟨n, s₁, hname, h⟩ := bind_ok.1 h
  rw [name_eq] at hname
  cases hname
  obtain ⟨above, s₂, _, h⟩ := bind_ok.1 h
  obtain ⟨ds, s₃, _, h⟩ := bind_ok.1 h
  obtain ⟨body, s₄, hbody, h⟩ := bind_ok.1 h
  cases h
  obtain ⟨⟨fields, s₅⟩, _, hbody⟩ := map_eq_ok.1 hbody
  cases hbody
  exact ⟨above, fields, rfl, rfl⟩

/-- A definition that starts with the keyword of object types and a name
defines the object type of that name. -/
theorem objectTypeName_of_definition {name : String} {ts : List Token} {s : Lexed}
    {d : Definition} (h : definition fuel (upon (.name "type" :: .name name :: ts)) = .ok (d, s)) :
    d.objectTypeName? = some name := by
  rw [definition_eq_from] at h
  obtain ⟨_, _, hpeek, h⟩ := bind_ok.1 h
  cases hpeek
  change typeSystemDefinition "type" fuel _ = _ at h
  unfold typeSystemDefinition at h
  obtain ⟨said, _, hsaid, h⟩ := bind_ok.1 h
  cases hsaid
  obtain ⟨_, _, hword, h⟩ := bind_ok.1 h
  rw [keyword_eq] at hword
  cases hword
  change (typeTail none .object fuel >>= fun t => pure (Definition.type t)) _ = _ at h
  obtain ⟨t, _, htail, h⟩ := bind_ok.1 h
  cases h
  obtain ⟨above, fields, hname, hbody⟩ := typeTail_object htail
  unfold Definition.objectTypeName?
  dsimp only
  rw [hbody, hname]

theorem follows_definitionFrom (described : Bool) (key : Token) (hle : fuel ≤ fuel') :
    Follows (fun d t => Apart d.awaitsBody t) (definitionFrom described key fuel)
      (definitionFrom described key fuel') := by
  unfold definitionFrom
  cases key with
  | name word =>
      refine follows_ite (fun _ => follows_typeSystemDefinition word hle) fun _ => ?_
      refine follows_ite (fun _ => (follows_operation hle).follows) fun _ => ?_
      refine follows_ite (fun _ => (follows_fragment hle).follows) fun _ => ?_
      refine follows_ite (fun _ => follows_throw _) fun _ => ?_
      exact follows_ite (fun _ => follows_extension hle) fun _ => follows_throw _
  | _ => exact follows_throw _

/-- A definition is read as before if more follows that is apart from it. -/
theorem follows_definition (hle : fuel ≤ fuel') :
    Follows (fun d t => Apart d.awaitsBody t) (definition fuel) (definition fuel') := by
  rw [definition_eq_from, definition_eq_from]
  refine follows_peek_bind_needs (fun t ts fault => ?_) fun _ _ h => nomatch h
  refine follows_ite (fun _ => ?_) (fun _ => ?_) _
  · exact (follows_selectionSet hle).bind fun sub => follows_pure _
  refine follows_ite (fun _ => ?_) (fun _ => follows_definitionFrom false t hle)
  refine follows_lookahead_bind (fun t u ts fault => ?_) fun s r h => nomatch h
  exact follows_ite (fun _ => follows_throw _) (fun _ => follows_definitionFrom true u hle) _

-- ============================================================== refusals

/-- From this state a parser is refused if these tokens follow and it has
taken all that are there, with an outcome after which they may not come. -/
def RefusesAt {α : Type} (awaits : α → Bool) (more : List Token) (p p' : Parser α) (s : Lexed) :
    Prop :=
  ∀ ⦃a s'⦄, p s = .ok (a, s') → s'.tokens = [] → awaits a = true →
    ∃ e, p' (upon (s.tokens ++ more)) = .error e

section

variable {α β : Type} {p p' : Parser α} {p₂ p₂' : Parser β} {f f' : α → Parser β}
  {stop : α → Token → Prop} {awaits : β → Bool} {more : List Token} {s : Lexed}

/-- Where the first parser goes on as before, the second one is refused. -/
theorem RefusesAt.bind (h : FollowsAt stop p p' s) (hstop : ∀ a, stop a (current more))
    (hf : ∀ a s', p s = .ok (a, s') → RefusesAt awaits more (f a) (f' a) s') :
    RefusesAt awaits more (p >>= f) (p' >>= f') s := by
  intro b s'' hbind hnil hawaits
  obtain ⟨a, s', hp, hbind⟩ := bind_ok.1 hbind
  rw [bind_eq_of_ok ((h hp).2 more fun _ => hstop a)]
  exact hf a s' hp hbind hnil hawaits

/-- Where the first parser is refused, so are both. -/
theorem RefusesAt.bind_left {awaits' : α → Bool} (h : RefusesAt awaits' more p p' s)
    (hf : ∀ a s' b s'', f a s' = .ok (b, s'') → s' = s'' ∧ (awaits b = true → awaits' a = true)) :
    RefusesAt awaits more (p >>= f) (p' >>= f') s := by
  intro b s'' hbind hnil hawaits
  obtain ⟨a, s', hp, hbind⟩ := bind_ok.1 hbind
  obtain ⟨rfl, himp⟩ := hf a s' b s'' hbind
  obtain ⟨e, he⟩ := h hp hnil (himp hawaits)
  exact ⟨e, bind_eq_of_error he f'⟩

theorem RefusesAt.map {g : α → β} {awaits' : α → Bool} (h : RefusesAt awaits' more p p' s)
    (hg : ∀ a, awaits (g a) = awaits' a) : RefusesAt awaits more (g <$> p) (g <$> p') s := by
  rw [map_eq_pure_bind, map_eq_pure_bind]
  refine h.bind_left fun a s' b s'' hok => ?_
  cases hok
  exact ⟨rfl, fun hb => hg a ▸ hb⟩

theorem refusesAt_ite {c : Prop} [Decidable c] {q q' : Parser β}
    (h : c → RefusesAt awaits more p₂ p₂' s) (h' : ¬ c → RefusesAt awaits more q q' s) :
    RefusesAt awaits more (if c then p₂ else q) (if c then p₂' else q') s := by
  by_cases hc : c
  · rw [if_pos hc, if_pos hc]
    exact h hc
  · rw [if_neg hc, if_neg hc]
    exact h' hc

theorem refusesAt_of_error {e : SyntaxFault} (h : p₂ s = .error e) :
    RefusesAt awaits more p₂ p₂' s := by
  intro b s' hok
  rw [h] at hok
  cases hok

/-- A parser after whose outcomes anything may come. -/
def Settles (awaits : β → Bool) (p : Parser β) : Prop :=
  ∀ ⦃s b s'⦄, p s = .ok (b, s') → awaits b = false

theorem settles_pure {b : β} (h : awaits b = false) : Settles awaits (pure b) := by
  intro s b' s' hok
  cases hok
  exact h

theorem settles_bind (h : ∀ a, Settles awaits (f a)) : Settles awaits (p >>= f) := by
  intro s b s'' hok
  obtain ⟨a, s', _, hok⟩ := bind_ok.1 hok
  exact h a hok

theorem settles_ite {c : Prop} [Decidable c] {q : Parser β} (h : Settles awaits p₂)
    (h' : Settles awaits q) : Settles awaits (if c then p₂ else q) := by
  split
  · exact h
  · exact h'

theorem Settles.refusesAt (h : Settles awaits p₂) : RefusesAt awaits more p₂ p₂' s := by
  intro b s' hok _ hawaits
  rw [h hok] at hawaits
  cases hawaits

end

/-- The start of a selection that is no field, in its braces. -/
abbrev spreadSelection (rest : List Token) : List Token := .punct .braceL :: .punct .spread :: rest

section

variable {α : Type} {rest : List Token} {s : Lexed}

/-- Where there were no items, items that are refused do not make a row. -/
theorem refusesAt_optionalMany {item item' : Parser α}
    (hitem : ∃ e, item' (upon (.punct .spread :: rest)) = .error e) :
    RefusesAt List.isEmpty (spreadSelection rest) (optionalMany .braceL .braceR item fuel)
      (optionalMany .braceL .braceR item' fuel') s := by
  intro xs s' hok hnil hempty
  obtain ⟨t, s₁, hpeek, hok⟩ := bind_ok.1 hok
  cases hpeek
  split at hok
  · obtain ⟨_, _, _, hok⟩ := bind_ok.1 hok
    obtain ⟨x, _, _, hok⟩ := bind_ok.1 hok
    obtain ⟨xs, _, _, hok⟩ := bind_ok.1 hok
    cases hok
    cases hempty
  · cases hok
    obtain ⟨e, he⟩ := hitem
    refine ⟨e, ?_⟩
    rw [hnil, List.nil_append]
    unfold optionalMany
    rw [bind_eq_of_ok (peek_cons _ _), if_pos rfl]
    unfold many
    rw [bind_eq_of_ok (mark_eq _ _)]
    exact bind_eq_of_error he _

/-- A selection is no body of a type. -/
theorem refusesAt_typeBody (kind : TypeKind) (above : List String) :
    RefusesAt TypeBody.awaitsBody (spreadSelection rest) (typeBody kind above fuel)
      (typeBody kind above fuel') s := by
  cases kind with
  | scalar => exact (settles_pure rfl).refusesAt
  | union =>
      have members : Settles TypeBody.awaitsBody (TypeBody.union <$> unionMembers fuel) := by
        rw [map_eq_pure_bind]
        exact settles_bind fun _ => settles_pure rfl
      exact members.refusesAt
  | object => exact (refusesAt_optionalMany ⟨_, rfl⟩).map fun _ => rfl
  | interface => exact (refusesAt_optionalMany ⟨_, rfl⟩).map fun _ => rfl
  | enum => exact (refusesAt_optionalMany ⟨_, rfl⟩).map fun _ => rfl
  | input => exact (refusesAt_optionalMany ⟨_, rfl⟩).map fun _ => rfl

theorem refusesAt_typeTail (said : Option String) (kind : TypeKind) (hle : fuel ≤ fuel') :
    RefusesAt (fun t => t.body.awaitsBody) (spreadSelection rest) (typeTail said kind fuel)
      (typeTail said kind fuel') s := by
  rw [typeTail_eq, typeTail_eq]
  refine RefusesAt.bind (follows_typeHead kind hle s) (fun _ => neutral_braceL) fun head s' _ => ?_
  refine (refusesAt_typeBody kind head.2.1).bind_left fun body s' t s'' hok => ?_
  cases hok
  exact ⟨rfl, id⟩

theorem settles_directiveTail {awaits : Definition → Bool}
    (h : ∀ d, awaits (.directive d) = false) (fuel : Nat) : Settles awaits (directiveTail fuel) :=
  settles_bind fun _ => settles_bind fun _ => settles_bind fun _ => settles_bind fun _ =>
    settles_bind fun _ => settles_bind fun _ => settles_pure (h _)

theorem refusesAt_typeSystemDefinition (word : String) (hle : fuel ≤ fuel') :
    RefusesAt Definition.awaitsBody (spreadSelection rest) (typeSystemDefinition word fuel)
      (typeSystemDefinition word fuel') s := by
  refine RefusesAt.bind (follows_description s) (fun _ _ => rfl) fun said s' _ => ?_
  refine RefusesAt.bind (follows_keyword word s') (fun _ => trivial) fun _ s' _ => ?_
  cases typeKeyword? word with
  | some kind =>
      refine (refusesAt_typeTail said kind hle).bind_left fun t s' d s'' hok => ?_
      cases hok
      exact ⟨rfl, id⟩
  | none =>
      refine refusesAt_ite (fun _ => (settles_directiveTail (fun _ => rfl) fuel).refusesAt) fun _ => ?_
      exact (settles_bind fun _ => settles_bind fun _ => settles_pure rfl).refusesAt

theorem refusesAt_advance_bind {p p' : Parser α} {awaits : α → Bool} {more : List Token} {t : Token}
    {ts : List Token} {fault : Option SyntaxFault} (h : RefusesAt awaits more p p' ⟨ts, fault⟩) :
    RefusesAt awaits more (advance >>= fun _ => p) (advance >>= fun _ => p') ⟨t :: ts, fault⟩ := by
  have hadvance : FollowsAt (fun _ _ => True) advance advance ⟨t :: ts, fault⟩ := followsAt_advance
  refine RefusesAt.bind hadvance (fun _ => trivial) fun a s' hok => ?_
  cases (advance_ok hok).1
  exact h

theorem refusesAt_lookahead_bind {f f' : Token → Parser α} {awaits : α → Bool} {more : List Token}
    (hcons : ∀ t u ts fault, RefusesAt awaits more (f u) (f' u) ⟨t :: u :: ts, fault⟩)
    (hnil : ∀ s r, f .eof s ≠ .ok r) :
    RefusesAt awaits more (lookahead >>= f) (lookahead >>= f') s := by
  obtain ⟨tokens, fault⟩ := s
  intro a s' h
  match tokens with
  | [] => exact absurd h (hnil _ _)
  | [t] =>
      cases fault with
      | none => exact absurd h (hnil _ _)
      | some e => cases h
  | t :: u :: ts => exact hcons t u ts fault h

theorem refusesAt_extension (hle : fuel ≤ fuel') :
    RefusesAt Definition.awaitsBody (spreadSelection rest) (extension fuel) (extension fuel') s := by
  refine refusesAt_lookahead_bind (fun t u ts fault => ?_) fun s r h => nomatch h
  cases u with
  | name word =>
      dsimp only
      cases typeKeyword? word with
      | some kind =>
          refine refusesAt_advance_bind (refusesAt_advance_bind ?_)
          refine (refusesAt_typeTail none kind hle).bind_left fun t s' d s'' hok => ?_
          split at hok
          · cases hok
          · cases hok
            exact ⟨rfl, id⟩
      | none =>
          refine refusesAt_ite (fun _ => ?_) (fun _ => refusesAt_of_error rfl)
          refine refusesAt_advance_bind (refusesAt_advance_bind ?_)
          refine RefusesAt.bind (follows_constDirectives hle _)
            (fun _ => neutral_braceL.endsDirectives) fun ds s' _ => ?_
          refine (refusesAt_optionalMany ⟨_, rfl⟩).bind_left fun roots s' d s'' hok => ?_
          split at hok
          · cases hok
          · cases hok
            exact ⟨rfl, id⟩
  | _ => exact refusesAt_of_error rfl

theorem settles_operation {awaits : Definition → Bool}
    (h : ∀ kind vars ds sub, awaits (.operation kind vars ds sub) = false) (fuel : Nat) :
    Settles awaits (operation fuel) := by
  refine settles_bind fun _ => settles_bind fun kind => settles_bind fun t => ?_
  cases t with
  | name word =>
      exact settles_bind fun _ => settles_bind fun _ => settles_bind fun _ => settles_bind fun _ =>
        settles_pure (h _ _ _ _)
  | _ =>
      exact settles_bind fun _ => settles_bind fun _ => settles_bind fun _ =>
        settles_pure (h _ _ _ _)

theorem settles_fragment {awaits : Definition → Bool}
    (h : ∀ on ds sub, awaits (.fragment on ds sub) = false) (fuel : Nat) :
    Settles awaits (fragment fuel) :=
  settles_bind fun _ => settles_bind fun _ => settles_bind fun _ => settles_bind fun _ =>
    settles_bind fun _ => settles_bind fun _ => settles_bind fun _ => settles_pure (h _ _ _)

theorem refusesAt_definitionFrom (described : Bool) (key : Token) (hle : fuel ≤ fuel') :
    RefusesAt Definition.awaitsBody (spreadSelection rest) (definitionFrom described key fuel)
      (definitionFrom described key fuel') s := by
  unfold definitionFrom
  cases key with
  | name word =>
      refine refusesAt_ite (fun _ => refusesAt_typeSystemDefinition word hle) fun _ => ?_
      refine refusesAt_ite (fun _ => (settles_operation (fun _ _ _ _ => rfl) fuel).refusesAt)
        fun _ => ?_
      refine refusesAt_ite (fun _ => (settles_fragment (fun _ _ _ => rfl) fuel).refusesAt)
        fun _ => ?_
      refine refusesAt_ite (fun _ => refusesAt_of_error rfl) fun _ => ?_
      exact refusesAt_ite (fun _ => refusesAt_extension hle) fun _ => refusesAt_of_error rfl
  | _ => exact refusesAt_of_error rfl

/-- A definition without a body is refused where a selection follows. -/
theorem refusesAt_definition (hle : fuel ≤ fuel') :
    RefusesAt Definition.awaitsBody (spreadSelection rest) (definition fuel) (definition fuel')
      s := by
  rw [definition_eq_from, definition_eq_from]
  intro d s' hok hnil hawaits
  obtain ⟨tokens, fault⟩ := s
  cases tokens with
  | nil => cases hok
  | cons t ts =>
      refine refusesAt_ite (fun _ => ?_) (fun _ => ?_) hok hnil hawaits
      · exact (settles_bind fun _ => settles_pure rfl).refusesAt
      refine refusesAt_ite (fun _ => ?_) (fun _ => refusesAt_definitionFrom false t hle)
      refine refusesAt_lookahead_bind (fun t u ts fault => ?_) fun s r h => nomatch h
      exact refusesAt_ite (fun _ => refusesAt_of_error rfl)
        fun _ => refusesAt_definitionFrom true u hle

end

-- ========================================================== object types

/-- Whether a definition defines an object type. -/
def definesObject (d : Definition) : Bool := d.objectTypeName?.isSome

/-- A parser that names object types by names that are there. -/
def NamesObjects (p : Parser Definition) : Prop :=
  ∀ ⦃s d s'⦄, p s = .ok (d, s') → ∀ n ∈ d.objectTypeName?, Token.name n ∈ s.tokens

section

variable {α : Type} {p q : Parser Definition}

theorem namesObjects_of_settles (h : Settles definesObject p) : NamesObjects p := by
  intro s d s' hok n hn
  have hnone := h hok
  unfold definesObject at hnone
  rw [Option.mem_def.1 hn] at hnone
  cases hnone

theorem namesObjects_throw (e : SyntaxFault) : NamesObjects (throw e) := fun _ _ _ hok => nomatch hok

theorem namesObjects_ite {c : Prop} [Decidable c] (h : NamesObjects p) (h' : NamesObjects q) :
    NamesObjects (if c then p else q) := by
  split
  · exact h
  · exact h'

/-- What is left after a part was there before it. -/
theorem namesObjects_bind {first first' : Parser α} {f : α → Parser Definition}
    {stop : α → Token → Prop} (hfirst : Follows stop first first')
    (h : ∀ a, NamesObjects (f a)) : NamesObjects (first >>= f) := by
  intro s d s'' hok n hn
  obtain ⟨a, s', hpart, hok⟩ := bind_ok.1 hok
  exact (hfirst s hpart).1.suffix.subset (h a hok n hn)

end

theorem name_mem {s s' : Lexed} {n : String} (h : name s = .ok (n, s')) : .name n ∈ s.tokens := by
  obtain ⟨tokens, fault⟩ := s
  cases tokens with
  | nil => cases h
  | cons t ts =>
      cases t with
      | name word =>
          change (advance >>= fun _ => pure word) ⟨.name word :: ts, fault⟩ = _ at h
          obtain ⟨_, _, _, h⟩ := bind_ok.1 h
          cases h
          exact List.mem_cons_self
      | _ => cases h

theorem name_mem_of_typeHead {kind : TypeKind} {s s' : Lexed}
    {head : String × List String × List Directive} (h : typeHead kind fuel s = .ok (head, s')) :
    .name head.1 ∈ s.tokens := by
  obtain ⟨word, _, hword, h⟩ := bind_ok.1 h
  have hname : head.1 = word := by
    cases kind with
    | _ =>
        obtain ⟨above, _, _, h⟩ := bind_ok.1 h
        obtain ⟨ds, _, _, h⟩ := bind_ok.1 h
        cases h
        rfl
  exact hname ▸ name_mem hword

theorem lookahead_ok {s s' : Lexed} {t : Token} (h : lookahead s = .ok (t, s')) : s' = s := by
  obtain ⟨tokens, fault⟩ := s
  match tokens, fault, h with
  | [], _, h => cases h; rfl
  | [_], none, h => cases h; rfl
  | _ :: _ :: _, _, h => cases h; rfl

theorem namesObjects_typeSystemDefinition (word : String) (fuel : Nat) :
    NamesObjects (typeSystemDefinition word fuel) := by
  refine namesObjects_bind follows_description fun said => ?_
  refine namesObjects_bind (follows_keyword word) fun _ => ?_
  cases typeKeyword? word with
  | some kind =>
      intro s d s' hok n hn
      obtain ⟨t, _, htail, hok⟩ := bind_ok.1 hok
      cases hok
      have hname : t.name = n := by
        unfold Definition.objectTypeName? at hn
        dsimp only at hn
        split at hn
        · exact Option.some.inj hn
        · cases hn
      rw [typeTail_eq] at htail
      obtain ⟨head, _, hhead, htail⟩ := bind_ok.1 htail
      obtain ⟨body, _, _, htail⟩ := bind_ok.1 htail
      cases htail
      exact hname ▸ name_mem_of_typeHead hhead
  | none =>
      refine namesObjects_ite ?_ ?_
      · exact namesObjects_of_settles (settles_directiveTail (fun _ => rfl) fuel)
      · exact namesObjects_of_settles (settles_bind fun _ => settles_bind fun _ => settles_pure rfl)

/-- An extension defines no object type. -/
theorem settles_extension (fuel : Nat) : Settles definesObject (extension fuel) := by
  refine settles_bind fun t => ?_
  cases t with
  | name word =>
      dsimp only
      cases typeKeyword? word with
      | some kind =>
          refine settles_bind fun _ => settles_bind fun _ => settles_bind fun t => ?_
          exact settles_ite (fun _ _ _ hok => nomatch hok) (settles_pure rfl)
      | none =>
          refine settles_ite ?_ fun _ _ _ hok => nomatch hok
          refine settles_bind fun _ => settles_bind fun _ => settles_bind fun _ =>
            settles_bind fun _ => ?_
          exact settles_ite (fun _ _ _ hok => nomatch hok) (settles_pure rfl)
  | _ => exact fun _ _ _ hok => nomatch hok

theorem namesObjects_definitionFrom (described : Bool) (key : Token) (fuel : Nat) :
    NamesObjects (definitionFrom described key fuel) := by
  unfold definitionFrom
  cases key with
  | name word =>
      have operations : NamesObjects (operation fuel) :=
        namesObjects_of_settles (settles_operation (fun _ _ _ _ => rfl) fuel)
      have fragments : NamesObjects (fragment fuel) :=
        namesObjects_of_settles (settles_fragment (fun _ _ _ => rfl) fuel)
      have extensions : NamesObjects (extension fuel) :=
        namesObjects_of_settles (settles_extension fuel)
      refine namesObjects_ite (namesObjects_typeSystemDefinition word fuel) ?_
      refine namesObjects_ite operations (namesObjects_ite fragments ?_)
      refine namesObjects_ite (namesObjects_throw _) ?_
      exact namesObjects_ite extensions (namesObjects_throw _)
  | _ => exact namesObjects_throw _

/-- The object type that a definition defines has a name that is there. -/
theorem namesObjects_definition (fuel : Nat) : NamesObjects (definition fuel) := by
  rw [definition_eq_from]
  refine namesObjects_bind follows_peek fun t => namesObjects_ite ?_ (namesObjects_ite ?_ ?_)
  · exact namesObjects_of_settles (settles_bind fun _ => settles_pure rfl)
  · intro s d s' hok
    obtain ⟨key, _, hkey, hok⟩ := bind_ok.1 hok
    rw [lookahead_ok hkey] at hok
    exact namesObjects_ite (namesObjects_throw _) (namesObjects_definitionFrom true key fuel) hok
  · exact namesObjects_definitionFrom false t fuel

-- =========================================================== documents

/-- A definition starts with a brace, a description or its keyword. -/
theorem starts_of_definition {s s' : Lexed} {d : Definition} (h : definition fuel s = .ok (d, s')) :
    Neutral (current s.tokens) ∧ current s.tokens ≠ .eof := by
  rw [definition_eq_from] at h
  obtain ⟨t, s₁, hpeek, h⟩ := bind_ok.1 h
  cases hpeek
  by_cases hbrace : current s.tokens = .punct .braceL
  · rw [hbrace]
    exact ⟨neutral_braceL, Token.noConfusion⟩
  rw [if_neg hbrace] at h
  by_cases hstring : (current s.tokens).isString = true
  · refine ⟨neutral_of_isString hstring, fun heof => ?_⟩
    rw [heof] at hstring
    cases hstring
  rw [if_neg hstring] at h
  change definitionFrom false (current s.tokens) fuel s = _ at h
  cases hkey : current s.tokens with
  | name word =>
      refine ⟨neutral_name ?_, Token.noConfusion⟩
      rintro rfl
      rw [hkey] at h
      cases h
  | _ =>
      rw [hkey] at h
      cases h

/-- Definitions one after another up to the end of the tokens. -/
inductive Defines (fuel : Nat) : Lexed → Document → Prop
  | last {s s' : Lexed} {d : Definition} (h : definition fuel s = .ok (d, s'))
      (hend : current s'.tokens = .eof) : Defines fuel s [d]
  | cons {s s' : Lexed} {d : Definition} {ds : Document} (h : definition fuel s = .ok (d, s'))
      (hmore : current s'.tokens ≠ .eof) (htail : Defines fuel s' ds) : Defines fuel s (d :: ds)

theorem definitions_succ {s s' : Lexed} {d : Definition} (h : definition fuel s = .ok (d, s'))
    (bound : Nat) :
    definitions fuel (bound + 1) s = (if current s'.tokens = .eof then pure [d]
      else definitions fuel bound >>= fun ds => pure (d :: ds) : Parser Document) s' := by
  rw [definitions, bind_eq_of_ok h]
  rfl

theorem defines_of_definitions {bound : Nat} {s s' : Lexed} {ds : Document}
    (h : definitions fuel bound s = .ok (ds, s')) : Defines fuel s ds := by
  induction bound generalizing s ds with
  | zero => cases h
  | succ bound ih =>
      unfold definitions at h
      obtain ⟨d, s₁, hd, h⟩ := bind_ok.1 h
      obtain ⟨t, s₂, hpeek, h⟩ := bind_ok.1 h
      cases hpeek
      split at h
      · next hend =>
        cases h
        exact .last hd hend
      · next hmore =>
        obtain ⟨ds', s₃, hds, h⟩ := bind_ok.1 h
        cases h
        exact .cons hd hmore (ih hds)

theorem nil_of_current {ts : List Token} (heof : Token.eof ∉ ts) (h : current ts = .eof) : ts = [] := by
  cases ts with
  | nil => rfl
  | cons t ts => exact absurd (h ▸ List.mem_cons_self) heof

/-- What comes after tokens that are there is not the next one. -/
theorem current_append {ts : List Token} (h : current ts ≠ .eof) (more : List Token) :
    ts ≠ [] ∧ current (ts ++ more) = current ts := by
  cases ts with
  | nil => exact absurd rfl h
  | cons t ts => exact ⟨List.cons_ne_nil t ts, rfl⟩

namespace Defines

variable {s s' : Lexed} {d : Definition} {ds ds' : Document} {ts more : List Token}
  {fault : Option SyntaxFault}

theorem ne_nil (h : Defines fuel s ds) : ds ≠ [] := by
  cases h with
  | last => exact List.cons_ne_nil _ _
  | cons => exact List.cons_ne_nil _ _

theorem starts (h : Defines fuel s ds) : Neutral (current s.tokens) ∧ current s.tokens ≠ .eof := by
  cases h with
  | last hd => exact starts_of_definition hd
  | cons hd => exact starts_of_definition hd

theorem definitions {bound : Nat} (h : Defines fuel s ds) (hbound : ds.length ≤ bound) :
    ∃ s', definitions fuel bound s = .ok (ds, s') := by
  induction h generalizing bound with
  | @last s s' d hd hend =>
      cases bound with
      | zero => cases hbound
      | succ bound =>
          refine ⟨s', ?_⟩
          rw [definitions_succ hd, if_pos hend]
          rfl
  | @cons s s' d ds hd hmore _ ih =>
      cases bound with
      | zero => cases hbound
      | succ bound =>
          obtain ⟨s'', hds⟩ := ih (Nat.le_of_succ_le_succ hbound)
          refine ⟨s'', ?_⟩
          rw [definitions_succ hd, if_neg hmore, bind_eq_of_ok hds]
          rfl

/-- A definition that takes no token would be read for ever. -/
theorem ne_self (h : Defines fuel s ds) (d : Definition) : definition fuel s ≠ .ok (d, s) := by
  induction h with
  | last hd hend =>
      intro hself
      rw [hself] at hd
      cases hd
      exact (starts_of_definition hself).2 hend
  | cons hd _ _ ih =>
      intro hself
      rw [hself] at hd
      cases hd
      exact ih hself

theorem shorter (h : Defines fuel s ds) (hd : definition fuel s = .ok (d, s')) :
    s'.tokens.length < s.tokens.length := by
  have hkeeps := (follows_definition (Nat.le_refl fuel) s hd).1
  refine Nat.lt_of_le_of_ne hkeeps.suffix.length_le fun hlength => h.ne_self d ?_
  have hsame : s' = s := by
    have htokens := hkeeps.suffix.eq_of_length hlength
    have hfault := hkeeps.fault
    cases s
    cases s'
    cases htokens
    cases hfault
    rfl
  rw [hd, hsame]

theorem length_le (h : Defines fuel s ds) : ds.length ≤ s.tokens.length := by
  have hall := h
  induction h with
  | last hd hend => exact Nat.succ_le_of_lt (Nat.lt_of_le_of_lt (Nat.zero_le _) (hall.shorter hd))
  | cons hd _ htail ih =>
      have hrest := ih htail
      have hshorter := hall.shorter hd
      rw [List.length_cons]
      omega

/-- Nothing is wrong after definitions that take all tokens. -/
theorem fault_eq_none (h : Defines fuel s ds) (heof : Token.eof ∉ s.tokens) : s.fault = none := by
  induction h with
  | @last s s' d hd hend =>
      have hkeeps := (follows_definition (Nat.le_refl fuel) s hd).1
      have hnil := nil_of_current (fun h => heof (hkeeps.suffix.subset h)) hend
      by_contra hfault
      refine hkeeps.guarded hfault (fun hsome => ?_) hnil
      exact (starts_of_definition hd).2 (by rw [hsome]; rfl)
  | @cons s s' d ds hd _ _ ih =>
      have hkeeps := (follows_definition (Nat.le_refl fuel) s hd).1
      exact hkeeps.fault ▸ ih fun h => heof (hkeeps.suffix.subset h)

/-- Definitions before others, where the first token of the others goes on
with no part of the last of them, or at the end. -/
theorem append (hle : fuel ≤ fuel') (h : Defines fuel s ds) (heof : Token.eof ∉ s.tokens)
    (hlast : ∀ d ∈ ds.getLast?, Apart d.awaitsBody (current more))
    (hmore : more = [] ∧ ds' = [] ∨ Defines fuel' (upon more) ds') :
    Defines fuel' (upon (s.tokens ++ more)) (ds ++ ds') := by
  induction h with
  | @last s s' d hd hend =>
      obtain ⟨hkeeps, happend⟩ := follows_definition hle s hd
      have hnil := nil_of_current (fun h => heof (hkeeps.suffix.subset h)) hend
      have hread := happend more fun _ => hlast d rfl
      rw [hnil, List.nil_append] at hread
      rcases hmore with ⟨rfl, rfl⟩ | hmore
      · exact .last hread rfl
      · exact .cons hread hmore.starts.2 hmore
  | @cons s s' d ds hd hsome htail ih =>
      obtain ⟨hkeeps, happend⟩ := follows_definition hle s hd
      have hrest := ih (fun h => heof (hkeeps.suffix.subset h)) fun d' hd' => hlast d' (by
        rw [List.getLast?_cons_of_ne_nil htail.ne_nil]
        exact hd')
      obtain ⟨hne, hcurrent⟩ := current_append hsome more
      exact .cons (happend more fun hnil => absurd hnil hne) (hcurrent ▸ hsome) hrest

/-- Definitions that go on with no part of the last of others come after
these. -/
theorem append_inv (hle : fuel ≤ fuel') (h : Defines fuel s ds) (heof : Token.eof ∉ s.tokens)
    (hmore : Token.eof ∉ more) (hlast : ∀ d ∈ ds.getLast?, Apart d.awaitsBody (current more))
    (hall : Defines fuel' (upon (s.tokens ++ more)) ds') :
    ∃ rest, ds' = ds ++ rest ∧ (more = [] ∧ rest = [] ∨ Defines fuel' (upon more) rest) := by
  induction h generalizing ds' with
  | @last s s' d hd hend =>
      obtain ⟨hkeeps, happend⟩ := follows_definition hle s hd
      have hnil := nil_of_current (fun h => heof (hkeeps.suffix.subset h)) hend
      have hread := happend more fun _ => hlast d rfl
      rw [hnil, List.nil_append] at hread
      cases hall with
      | last hread' hend' =>
          rw [hread] at hread'
          cases hread'
          exact ⟨[], rfl, Or.inl ⟨nil_of_current hmore hend', rfl⟩⟩
      | @cons _ _ _ rest hread' _ htail' =>
          rw [hread] at hread'
          cases hread'
          exact ⟨rest, rfl, Or.inr htail'⟩
  | @cons s s' d ds hd hsome htail ih =>
      obtain ⟨hkeeps, happend⟩ := follows_definition hle s hd
      obtain ⟨hne, hcurrent⟩ := current_append hsome more
      have hread := happend more fun hnil => absurd hnil hne
      cases hall with
      | last hread' hend' =>
          rw [hread] at hread'
          cases hread'
          exact absurd (hcurrent ▸ hend') hsome
      | cons hread' _ htail' =>
          rw [hread] at hread'
          cases hread'
          obtain ⟨rest, rfl, hrest⟩ := ih (fun h => heof (hkeeps.suffix.subset h)) (fun d' hd' =>
            hlast d' (by rwa [List.getLast?_cons_of_ne_nil htail.ne_nil])) htail'
          exact ⟨rest, rfl, hrest⟩

/-- The object types of a document have names that are among its tokens. -/
theorem name_mem (h : Defines fuel s ds) {n : String} (hn : n ∈ Document.objectTypeNames ds) :
    .name n ∈ s.tokens := by
  obtain ⟨d, hd, hname⟩ := List.mem_filterMap.1 hn
  clear hn
  induction h with
  | last hread =>
      cases List.mem_singleton.1 hd
      exact namesObjects_definition fuel hread n hname
  | @cons s s' _ _ hread _ _ ih =>
      rcases List.mem_cons.1 hd with rfl | hd
      · exact namesObjects_definition fuel hread n hname
      · exact (follows_definition (Nat.le_refl fuel) s hread).1.suffix.subset (ih hd)

theorem mono (hle : fuel ≤ fuel') (h : Defines fuel (upon ts) ds) (heof : Token.eof ∉ ts) :
    Defines fuel' (upon ts) ds := by
  have hlast : ∀ d ∈ ds.getLast?, Apart d.awaitsBody (current []) :=
    fun _ _ => ⟨neutral_eof, Token.noConfusion⟩
  have hsame := h.append hle heof hlast (Or.inl ⟨rfl, rfl⟩)
  rw [List.append_nil, List.append_nil] at hsame
  exact hsame

/-- Where the last definition is without its body, no selection may follow. -/
theorem not_append (h : Defines fuel s ds) (heof : Token.eof ∉ s.tokens) (hle : fuel ≤ fuel')
    (hlast : ∀ d ∈ ds.getLast?, d.awaitsBody = true) (rest : List Token) (ds' : Document) :
    ¬ Defines fuel' (upon (s.tokens ++ spreadSelection rest)) ds' := by
  induction h generalizing ds' with
  | @last s s' d hd hend =>
      obtain ⟨hkeeps, -⟩ := follows_definition hle s hd
      have hnil := nil_of_current (fun h => heof (hkeeps.suffix.subset h)) hend
      have hrefuses : RefusesAt Definition.awaitsBody (spreadSelection rest) (definition fuel)
          (definition fuel') s := refusesAt_definition hle
      obtain ⟨e, he⟩ := hrefuses hd hnil (hlast d rfl)
      intro hall
      cases hall with
      | last hread => rw [he] at hread; cases hread
      | cons hread => rw [he] at hread; cases hread
  | @cons s s' d ds hd hsome htail ih =>
      obtain ⟨hkeeps, happend⟩ := follows_definition hle s hd
      obtain ⟨hne, hcurrent⟩ := current_append hsome (spreadSelection rest)
      have hread := happend (spreadSelection rest) fun hnil => absurd hnil hne
      intro hall
      cases hall with
      | last hread' hend =>
          rw [hread] at hread'
          cases hread'
          exact hsome (hcurrent ▸ hend)
      | cons hread' _ htail' =>
          rw [hread] at hread'
          cases hread'
          refine ih (fun h => heof (hkeeps.suffix.subset h)) (fun d' hd' => hlast d' ?_) _ htail'
          rw [List.getLast?_cons_of_ne_nil htail.ne_nil]
          exact hd'

end Defines

end ModelSchema.Graphql.Parser
