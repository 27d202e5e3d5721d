/-
Documents joined by a blank. The text is read as the definitions of one
document after those of the other if at each seam no comment covers what
comes, and no body comes where a definition is without one (`Seam`). A
document that leaves neither a comment nor a body open is sealed: whatever
document comes after it, the seam holds. An empty line ends a comment, so
documents with one between them need only be no body of each other
(`parse_lines`).
-/
import Mathlib.Data.List.Chain
import ModelSchema.Proofs.Joining.Documents
import ModelSchema.Proofs.Joining.Lexing
import ModelSchema.Fragment.Basic

namespace ModelSchema.Graphql

open ModelSchema.Graphql.Parser (Apart Defines current spreadSelection upon)

-- ========================================================= single texts

/-- A text that is read as these tokens, which make up this document. -/
structure Reads (s : String) (ts : List Token) (d : Document) : Prop where
  spells : Spells (leavesComment s) s.toList ts
  defines : Defines (ts.length + 1) (upon ts) d

section

variable {s : String} {ts : List Token} {d : Document}

theorem spelled_of_lex (s : String) : ∀ t ∈ (lex s).tokens, t.Spelled :=
  spelled_of_lexWith (s.toList.length + 1) s.toList

theorem ne_eof_of_lex (s : String) : Token.eof ∉ (lex s).tokens := fun h => spelled_of_lex s _ h

/-- What a parser makes of a text, it makes of its tokens; and a text without
any has nothing wrong in it. -/
theorem Parser.exists_of_run {α : Type} {p : Nat → Parser α} {a : α}
    (h : Parser.run s p = .ok a) :
    ∃ s', p ((lex s).tokens.length + 1) (lex s) = .ok (a, s')
      ∧ ((lex s).fault ≠ none → (lex s).tokens ≠ []) := by
  unfold Parser.run at h
  dsimp only at h
  split at h
  · cases h
  · next hsome =>
    obtain ⟨⟨b, s'⟩, hread, rfl⟩ := map_eq_ok.1 h
    refine ⟨s', hread, fun hfault hnil => ?_⟩
    obtain ⟨e, he⟩ := Option.ne_none_iff_exists'.1 hfault
    exact hsome e hnil he

/-- A text that is a document is read up to its end. -/
theorem exists_reads (h : parse s = .ok d) : ∃ ts, Reads s ts d := by
  have heof := ne_eof_of_lex s
  obtain ⟨s', hread, -⟩ := Parser.exists_of_run h
  cases hlex : lex s with
  | mk ts fault =>
      rw [hlex] at heof hread
      have hdefines : Defines (ts.length + 1) ⟨ts, fault⟩ d := Parser.defines_of_definitions hread
      have hfault : fault = none := hdefines.fault_eq_none heof
      subst hfault
      exact ⟨ts, spells_of_lex hlex, hdefines⟩

namespace Reads

theorem lex_eq (h : Reads s ts d) : lex s = ⟨ts, none⟩ := Graphql.lex_eq h.spells.lexes

theorem ne_eof (h : Reads s ts d) : Token.eof ∉ ts := by
  have heof := ne_eof_of_lex s
  rwa [h.lex_eq] at heof

theorem parse_eq (h : Reads s ts d) : parse s = .ok d := by
  obtain ⟨s', hs'⟩ := h.defines.definitions (Nat.le_succ_of_le h.defines.length_le)
  unfold parse
  rw [Parser.run_eq h.lex_eq]
  show Except.map Prod.fst (Parser.definitions _ _ _) = _
  rw [hs']
  rfl

theorem exists_cons (h : Reads s ts d) : ∃ t ts', ts = t :: ts' := by
  cases ts with
  | nil => exact absurd rfl h.defines.starts.2
  | cons t ts => exact ⟨t, ts, rfl⟩

end Reads

/-- The object types that a text defines have names that are names. -/
theorem isName_of_mem_objectTypeNames (h : parse s = .ok d) {n : String}
    (hn : n ∈ Document.objectTypeNames d) : isName n = true := by
  obtain ⟨ts, hreads⟩ := exists_reads h
  have hspelled := spelled_of_lex s
  rw [hreads.lex_eq] at hspelled
  exact hspelled _ (hreads.defines.name_mem hn)

end

-- ================================================================= seams

/-- Whether the last definition of a document is without its body. -/
def awaitsBody (s : String) : Bool :=
  match parse s with
  | .ok d => d.getLast?.any Definition.awaitsBody
  | .error _ => false

theorem awaitsBody_eq {s : String} {d : Document} (h : parse s = .ok d) :
    awaitsBody s = d.getLast?.any Definition.awaitsBody := by
  unfold awaitsBody
  rw [h]

/-- The second of two texts is no body of the first. -/
def NoBody (s s' : String) : Prop :=
  awaitsBody s = true → (lex s').tokens.head? ≠ some (.punct .braceL)

theorem noBody_of_settled {s : String} (h : awaitsBody s = false) (s' : String) : NoBody s s' := by
  intro hawaits
  rw [h] at hawaits
  cases hawaits

/-- Two texts of which nothing is lost, and nothing is put together, if they
are joined: a comment that is left open covers no more than is passed over
anyway, and no brace comes where a body would. -/
structure Seam (s s' : String) : Prop where
  comment : leavesComment s = true → skipIgnored true s'.toList = skipIgnored false s'.toList
  body : awaitsBody s = true → (lex s').tokens.head? ≠ some (.punct .braceL)

/-- A document that leaves open neither a comment nor a body. -/
structure Complete (s : String) : Prop where
  comment : leavesComment s = false
  body : awaitsBody s = false

theorem Complete.seam {s : String} (h : Complete s) (s' : String) : Seam s s' where
  comment hopen := by
    rw [h.comment] at hopen
    cases hopen
  body := noBody_of_settled h.body s'

/-- A text that starts as another one does. -/
structure StartsAs (s s' : String) : Prop where
  comment : skipIgnored true s.toList = skipIgnored false s.toList →
    skipIgnored true s'.toList = skipIgnored false s'.toList
  token : (lex s').tokens.head? = (lex s).tokens.head?

theorem StartsAs.refl (s : String) : StartsAs s s := ⟨id, rfl⟩

theorem Seam.of_startsAs {s s' s'' : String} (h : Seam s s') (hs : StartsAs s' s'') : Seam s s'' where
  comment hopen := hs.comment (h.comment hopen)
  body hopen := hs.token ▸ h.body hopen

-- ================================================================= joins

theorem toList_joined (s s' : String) : (s ++ " " ++ s').toList = s.toList ++ ' ' :: s'.toList := by
  rw [String.toList_append, String.toList_append, List.append_assoc]
  rfl

/-- A text that is this document, starts as one text and ends as another. -/
structure Joins (first last : String) (d : Document) (s : String) : Prop where
  parse : parse s = .ok d
  comment : leavesComment s = leavesComment last
  body : awaitsBody s = awaitsBody last
  starts : StartsAs first s

theorem Joins.single {s : String} {d : Document} (h : Graphql.parse s = .ok d) : Joins s s d s :=
  ⟨h, rfl, rfl, StartsAs.refl s⟩

/-- A document before others, if all tokens are read and no body comes where
a definition is without one. -/
theorem Joins.before {e first last s all : String} {d d' : Document} {more : List Char}
    (he : Graphql.parse e = .ok d) (h : Joins first last d' s)
    (hall : all.toList = e.toList ++ more)
    (hspells : ∀ {ts t ts'}, Spells (leavesComment e) e.toList ts →
      Spells (leavesComment s) s.toList (t :: ts') →
      Spells (leavesComment s) (e.toList ++ more) (ts ++ t :: ts'))
    (hbody : NoBody e first) : Joins e last (d ++ d') all := by
  obtain ⟨ts, hreads⟩ := exists_reads he
  obtain ⟨ts', hreads'⟩ := exists_reads h.parse
  obtain ⟨t, rest, rfl⟩ := hreads.exists_cons
  obtain ⟨t', rest', rfl⟩ := hreads'.exists_cons
  have hspells := hspells hreads.spells hreads'.spells
  rw [← hall] at hspells
  have hcomment : leavesComment all = leavesComment s :=
    (spells_of_lex (Graphql.lex_eq hspells.lexes)).inComment_unique hspells
  have hlast : ∀ x ∈ d.getLast?, Apart x.awaitsBody (current (t' :: rest')) := by
    intro x hx
    refine ⟨hreads'.defines.starts.1, fun hbrace => ?_⟩
    cases hawaits : x.awaitsBody with
    | false => rfl
    | true =>
        refine absurd ?_ (hbody ?_)
        · rw [← h.starts.token, hreads'.lex_eq]
          exact congrArg some hbrace
        · rw [awaitsBody_eq he, Option.mem_def.1 hx]
          exact hawaits
  have hreads'' : Reads all (t :: rest ++ t' :: rest') (d ++ d') := by
    have hlength := @List.length_append _ (t :: rest) (t' :: rest')
    have htail : Defines ((t :: rest ++ t' :: rest').length + 1) (upon (t' :: rest')) d' :=
      hreads'.defines.mono (by omega) hreads'.ne_eof
    exact ⟨hcomment ▸ hspells,
      hreads.defines.append (by omega) hreads.ne_eof hlast (Or.inr htail)⟩
  refine ⟨hreads''.parse_eq, hcomment.trans h.comment, ?_, ?_, ?_⟩
  · rw [awaitsBody_eq hreads''.parse_eq, ← h.body, awaitsBody_eq h.parse,
      List.getLast?_append_of_ne_nil _ hreads'.defines.ne_nil]
  · intro hskip
    obtain ⟨c, cs, hfalse⟩ := hreads.spells.exists_skip
    have htrue := hskip.trans hfalse
    rw [hall, skipIgnored_append_of_cons htrue, skipIgnored_append_of_cons hfalse]
  · rw [hreads''.lex_eq, hreads.lex_eq]
    rfl

/-- A document before others with a blank between them, if the seam holds. -/
theorem Joins.cons {e first last s : String} {d d' : Document} (he : Graphql.parse e = .ok d)
    (hseam : Seam e first) (h : Joins first last d' s) : Joins e last (d ++ d') (e ++ " " ++ s) :=
  h.before he (toList_joined e s)
    (fun hfirst hrest => hfirst.append hrest (hseam.of_startsAs h.starts).comment) hseam.body

/-- A document before others with an empty line between them. -/
theorem Joins.cons_line {e first last s : String} {d d' : Document} (he : Graphql.parse e = .ok d)
    (hbody : NoBody e first) (h : Joins first last d' s) :
    Joins e last (d ++ d') (e ++ "\n\n" ++ s) := by
  have htext : (e ++ "\n\n" ++ s).toList = e.toList ++ '\n' :: '\n' :: s.toList := by
    rw [String.toList_append, String.toList_append, List.append_assoc]
    rfl
  exact h.before he htext Spells.append_line hbody

/-- Documents one after another, if what is asked of two of them holds of all
neighbours. -/
theorem joins_intercalate {sep : String} {R : String → String → Prop}
    (hcons : ∀ {e first last s : String} {d d' : Document}, parse e = .ok d → R e first →
      Joins first last d' s → Joins e last (d ++ d') (e ++ sep ++ s))
    {e : String} {es : List String} {ds : List Document}
    (h : List.Forall₂ (fun s d => parse s = .ok d) (e :: es) ds) (hchain : (e :: es).IsChain R) :
    Joins e ((e :: es).getLast (List.cons_ne_nil e es)) ds.flatten (sep.intercalate (e :: es)) := by
  induction es generalizing e ds with
  | nil =>
      obtain ⟨d, rest, he, htail, rfl⟩ := List.forall₂_cons_left_iff.1 h
      cases htail
      rw [String.intercalate_singleton, List.flatten_cons, List.flatten_nil, List.append_nil]
      exact Joins.single he
  | cons e' es ih =>
      obtain ⟨d, rest, he, htail, rfl⟩ := List.forall₂_cons_left_iff.1 h
      obtain ⟨hseam, hchain⟩ := List.isChain_cons_cons.1 hchain
      rw [String.intercalate_cons_cons, List.flatten_cons,
        List.getLast_cons (List.cons_ne_nil e' es)]
      exact hcons he hseam (ih htail hchain)

/-- Documents with a blank between them, if all seams hold. -/
theorem joins_joined {e : String} {es : List String} {ds : List Document}
    (h : List.Forall₂ (fun s d => parse s = .ok d) (e :: es) ds) (hseams : (e :: es).IsChain Seam) :
    Joins e ((e :: es).getLast (List.cons_ne_nil e es)) ds.flatten (Fragment.joined (e :: es)) :=
  joins_intercalate Joins.cons h hseams

/-- Documents with an empty line between them, if none is the body of the one
before it. -/
theorem parse_lines {e : String} {es : List String} {ds : List Document}
    (h : List.Forall₂ (fun s d => parse s = .ok d) (e :: es) ds)
    (hbodies : (e :: es).IsChain NoBody) : parse ("\n\n".intercalate (e :: es)) = .ok ds.flatten :=
  (joins_intercalate Joins.cons_line h hbodies).parse

/-- After an open comment a text of a single line is lost. -/
theorem parse_swallowed {s line : String} {d : Document} (h : parse s = .ok d)
    (hopen : leavesComment s = true) (hline : ∀ c ∈ line.toList, c ≠ '\n' ∧ c ≠ '\r') :
    parse (s ++ " " ++ line) = .ok d := by
  obtain ⟨ts, hreads⟩ := exists_reads h
  have hspells := hreads.spells
  rw [hopen] at hspells
  have hsame := hspells.append_swallowed hline
  rw [← toList_joined] at hsame
  have hlex : lex (s ++ " " ++ line) = lex s := (Graphql.lex_eq hsame.lexes).trans hreads.lex_eq.symm
  rw [← h]
  unfold parse Parser.run
  rw [hlex]

/-- A query that asks for a fragment alone. -/
def fragmentQuery : String := "\x7b ...x \x7d"

theorem reads_fragmentQuery : Reads fragmentQuery
    [.punct .braceL, .punct .spread, .name "x", .punct .braceR]
    [.operation .query [] [] [.spread []]] := by
  have hquery : Parser.definition 5 (upon [.punct .braceL, .punct .spread, .name "x", .punct .braceR])
      = .ok (.operation .query [] [] [.spread []], upon []) := rfl
  exact ⟨spells_of_lex rfl, .last hquery rfl⟩

/-- Where a body may come, no query may. -/
theorem parse_refused {s : String} {d : Document} (h : parse s = .ok d)
    (hclosed : leavesComment s = false) (hawaits : awaitsBody s = true) (d' : Document) :
    parse (s ++ " " ++ fragmentQuery) ≠ .ok d' := by
  intro hall
  obtain ⟨ts, hreads⟩ := exists_reads h
  have hspells := hreads.spells.append reads_fragmentQuery.spells fun hopen => by
    rw [hclosed] at hopen
    cases hopen
  rw [← toList_joined] at hspells
  obtain ⟨ts', hreads'⟩ := exists_reads hall
  have htokens : ts' = ts ++ [.punct .braceL, .punct .spread, .name "x", .punct .braceR] := by
    have hlex := Graphql.lex_eq hspells.lexes
    rw [hreads'.lex_eq] at hlex
    exact (Lexed.mk.inj hlex).1
  subst htokens
  refine hreads.defines.not_append hreads.ne_eof ?_ ?_ _ d' hreads'.defines
  · rw [List.length_append]
    omega
  · intro x hx
    rw [awaitsBody_eq h, Option.mem_def.1 hx] at hawaits
    exact hawaits

/-- A document that goes on after a part of it that is a document of its
own has the definitions of that part first; the others are read of the
tokens of the rest, if it starts with no part of a definition. -/
theorem exists_rest {s more : String} {d d' : Document} (h : parse s = .ok d)
    (hall : parse (s ++ "\n" ++ more) = .ok d') (hmore : Stops more.toList)
    (hstart : ∀ {inComment ts}, Spells inComment more.toList ts → Apart true (current ts)) :
    ∃ fuel inComment ts rest, Spells inComment more.toList ts ∧ d' = d ++ rest
      ∧ (ts = [] ∧ rest = [] ∨ Defines fuel (upon ts) rest) := by
  obtain ⟨ts, hreads⟩ := exists_reads h
  obtain ⟨ts', hreads'⟩ := exists_reads hall
  have hspells := hreads'.spells
  have heof := hreads'.ne_eof
  have htext : (s ++ "\n" ++ more).toList = s.toList ++ ['\n'] ++ more.toList := by
    rw [String.toList_append, String.toList_append]
    rfl
  rw [htext] at hspells
  obtain ⟨rest, rfl, hrest⟩ := hreads.spells.ended.append_inv hmore hspells
  have hlength : ts.length + 1 ≤ (ts ++ rest).length + 1 := by
    rw [List.length_append]
    omega
  obtain ⟨hneutral, hbrace⟩ := hstart hrest
  obtain ⟨ds, rfl, hds⟩ := hreads.defines.append_inv hlength hreads.ne_eof
    (fun hmem => heof (List.mem_append_right _ hmem))
    (fun x _ => ⟨hneutral, fun heq => Bool.noConfusion (hbrace heq)⟩) hreads'.defines
  exact ⟨_, _, rest, ds, hrest, rfl, hds⟩

/-- An object type that is put after a document is defined after what the
document defines. -/
theorem exists_type {s name rest : String} {d d' : Document} (hname : isName name = true)
    (hrest : Stops rest.toList) (h : parse s = .ok d)
    (hall : parse (s ++ "\n\n" ++ ("type " ++ name ++ rest)) = .ok d') :
    ∃ x more, d' = d ++ x :: more ∧ x.objectTypeName? = some name := by
  have hwords : Spells false ("type " ++ name).toList [.name "type", .name name] := by
    have hpair := (Spells.name (s := "type") (by decide)).append (Spells.name hname)
      fun hopen => Bool.noConfusion hopen
    rw [String.toList_append]
    exact hpair
  have hstart : ∀ {inComment ts}, Spells inComment ("\n" ++ ("type " ++ name ++ rest)).toList ts →
      ∃ ts', ts = .name "type" :: .name name :: ts' := by
    intro inComment ts hspells
    rw [String.toList_append] at hspells
    have hline := hspells.lineFeed_inv
    rw [String.toList_append] at hline
    obtain ⟨ts', rfl, _⟩ := hwords.append_inv hrest hline
    exact ⟨ts', rfl⟩
  have htext : s ++ "\n\n" ++ ("type " ++ name ++ rest)
      = s ++ "\n" ++ ("\n" ++ ("type " ++ name ++ rest)) := by
    have hfeeds : "\n\n" = "\n" ++ "\n" := rfl
    simp only [hfeeds, String.append_assoc]
  rw [htext] at hall
  obtain ⟨fuel, _, ts, more, hspells, rfl, hdefines⟩ := exists_rest h hall
    (by rw [String.toList_append]; exact stops_cons rfl _) fun hspells => by
      obtain ⟨ts', rfl⟩ := hstart hspells
      exact ⟨Parser.neutral_name (by decide), Token.noConfusion⟩
  obtain ⟨ts', rfl⟩ := hstart hspells
  rcases hdefines with ⟨hnil, _⟩ | hdefines
  · cases hnil
  · cases hdefines with
    | last hd _ => exact ⟨_, [], rfl, Parser.objectTypeName_of_definition hd⟩
    | cons hd _ _ => exact ⟨_, _, rfl, Parser.objectTypeName_of_definition hd⟩

/-- The shortest text that declares an object type. -/
theorem parse_type {n : String} (h : isName n = true) :
    parse ("type " ++ n) = .ok [.type ⟨none, n, [], .object [] []⟩] := by
  have hword : Open "type".toList [.name "type"] := Open.name (by decide)
  have hblank : Closed [' '] [] := Closed.loose (by decide)
  have hlexes : Lexes ("type " ++ n).toList [.name "type", .name n] := by
    rw [String.toList_append]
    exact ((hword.append_closed hblank (stops_cons (by decide) []) (List.cons_ne_nil _ _)).append_open
      (Open.name h)).lexes
  unfold parse Parser.run
  rw [lex_eq hlexes]
  rfl

end ModelSchema.Graphql
