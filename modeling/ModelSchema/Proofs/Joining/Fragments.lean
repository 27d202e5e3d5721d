/-
Object types of contributed definitions, told in two ways. A fragment tells
the object types that its entries define, each read on its own; the text of
its definitions is its entries joined by a blank. A parser finds in that text
what is told if the seams of the entries hold, and it goes on to do so,
whatever is contributed next, exactly if the last entry is complete.
-/
import ModelSchema.Fragment.Merge
import ModelSchema.Proofs.Joining.Texts
import ModelSchema.Proofs.Merge.Basic
import ModelSchema.Proofs.Merge.Ordered

namespace ModelSchema

open Graphql (Complete Definition Document Seam awaitsBody isName leavesComment parse)

theorem Graphql.Document.objectTypeNames_flatten (ds : List Document) :
    Document.objectTypeNames ds.flatten = ds.flatMap Document.objectTypeNames := by
  unfold Document.objectTypeNames
  rw [List.filterMap_flatten, List.flatMap_def]

-- ================================================================ unions

/-- The union of object types, as it is put into a schema. -/
structure Morph.Union where
  definition : String
  members : List Key
  resolvers : SectionMap
deriving DecidableEq

/-- The union of these members. -/
def Morph.unionOf (members : List Key) : Except Fault Morph.Union := do
  return ⟨← Morph.definition members, members, Fragment.morphResolvers members⟩

/-- The union of the object types that are found in a text. -/
def Morph.unionOfText (s : String) : Except Fault Morph.Union := do
  Morph.unionOf ((← Morph.objectTypes s).map Key.ofText)

/-- Names that are texts make up a union. -/
theorem Morph.exists_unionOf (names : List String) :
    ∃ u, Morph.unionOf (names.map Key.ofText) = .ok u := by
  have hnames : Morph.memberNames (names.map Key.ofText) = .ok names := by
    unfold memberNames
    induction names with
    | nil => rfl
    | cons n names ih =>
        rw [List.map_cons, List.mapM_cons, ih]
        rfl
  unfold unionOf Morph.definition
  rw [hnames]
  exact ⟨_, rfl⟩

namespace Fragment

/-- The text of the definitions of a fragment. -/
def definitionText (f : Fragment) : String := joined f.definition

/-- The union of the object types that a fragment tells. -/
def morphUnion (f : Fragment) : Except Fault Morph.Union := Morph.unionOf f.morphMembers

/-- A fragment whose text defines the object types that the fragment tells, in
the same order, so that both make up the same union. -/
structure Faithful (f : Fragment) : Prop where
  objectTypes : ∃ names, Morph.objectTypes f.definitionText = .ok names
    ∧ f.objectTypes = names.map Key.ofText
  union : ∃ u, Morph.unionOfText f.definitionText = .ok u ∧ f.morphUnion = .ok u

/-- A fragment of a configuration document. -/
def Configured (f : Fragment) : Prop :=
  ∃ place document source, ofSource place document source = .ok f

/-- A fragment whose entries are these documents, and which tells the object
types that they define. -/
structure Documented (f : Fragment) (ds : List Document) : Prop where
  given : ∀ e ∈ f.definition, Text.isBlankText e = false
  parses : List.Forall₂ (fun e d => parse e = .ok d) f.definition ds
  told : f.objectTypes
    = Morph.uniqueKeys ((ds.flatMap Document.objectTypeNames).map Key.ofText)

variable {f : Fragment} {fs : List Fragment} {ds : List Document}

-- =============================================================== reading

/-- Texts that are blank are left out. -/
theorem not_isBlankText_of_textEntries {v : Value} {es : List String} (h : textEntries v = .ok es) :
    ∀ e ∈ es, Text.isBlankText e = false := by
  have given : ∀ {item e}, textEntry? item = .ok (some e) → Text.isBlankText e = false := by
    intro item e h
    unfold textEntry? at h
    split at h
    · next s =>
      split at h
      · cases h
      · next hblank =>
        cases h
        exact Bool.eq_false_iff.2 hblank
    · split at h
      · cases h
      · cases h
  have entries : ∀ {items : List Value}, (do return (← items.mapM textEntry?).filterMap id) = .ok es →
      ∀ e ∈ es, Text.isBlankText e = false := by
    intro items h e he
    obtain ⟨read, hread, h⟩ := bind_eq_ok.1 h
    cases h
    obtain ⟨said, hsaid, hsome⟩ := List.mem_filterMap.1 he
    obtain ⟨item, _, hitem⟩ := mem_of_mem_mapM hread hsaid
    cases said with
    | none => cases hsome
    | some s =>
        cases hsome
        exact given hitem
  unfold textEntries at h
  cases hgiven : v.isGiven with
  | false =>
      rw [hgiven] at h
      cases h
      exact fun e he => nomatch he
  | true =>
      rw [hgiven] at h
      cases v with
      | str s =>
          have hone : (do return (← [Value.str s].mapM textEntry?).filterMap id) = .ok es := h
          exact entries hone
      | _ =>
          obtain ⟨items, _, h⟩ := bind_eq_ok.1 h
          exact entries h

/-- What an entry defines is found by reading it. -/
theorem objectTypes_eq_ok {e : String} (hgiven : Text.isBlankText e = false) {names : List String} :
    Morph.objectTypes e = .ok names
      ↔ ∃ d, parse e = .ok d ∧ names = Morph.uniqueNames (Document.objectTypeNames d) := by
  unfold Morph.objectTypes
  rw [hgiven]
  cases parse e with
  | error fault =>
      constructor
      · exact fun h => nomatch h
      · rintro ⟨_, h, _⟩
        cases h
  | ok d =>
      constructor
      · intro h
        exact ⟨d, rfl, (Except.ok.inj h).symm⟩
      · rintro ⟨_, h, rfl⟩
        cases h
        rfl

theorem exists_documents {es : List String} (hgiven : ∀ e ∈ es, Text.isBlankText e = false)
    {names : List (List String)} (h : es.mapM Morph.objectTypes = .ok names) :
    ∃ ds : List Document, List.Forall₂ (fun e d => parse e = .ok d) es ds
      ∧ names = ds.map fun d => Morph.uniqueNames (Document.objectTypeNames d) := by
  have hread := mapM_eq_ok.1 h
  clear h
  induction hread with
  | nil => exact ⟨[], .nil, rfl⟩
  | @cons e ns es names hread _ ih =>
      obtain ⟨d, hd, rfl⟩ := (objectTypes_eq_ok (hgiven e List.mem_cons_self)).1 hread
      obtain ⟨ds, hds, rfl⟩ := ih fun e he => hgiven e (List.mem_cons_of_mem _ he)
      exact ⟨d :: ds, .cons hd hds, rfl⟩

/-- Names of documents may be made unique one document at a time. -/
theorem uniqueKeys_documents (ds : List Document) :
    Morph.uniqueKeys ((ds.map fun d => Morph.uniqueNames (Document.objectTypeNames d)).flatten.map
        Key.ofText)
      = Morph.uniqueKeys ((ds.flatMap Document.objectTypeNames).map Key.ofText) := by
  rw [← List.flatMap_def, List.map_flatMap, List.map_flatMap]
  refine Morph.uniqueKeys_flatMap_congr fun d _ => ?_
  rw [← Morph.uniqueKeys_ofText, Morph.uniqueKeys_uniqueKeys]

/-- A document is a fragment of its entries. -/
theorem exists_documented_ofDocument {place : Nat} {document : Value}
    (h : ofDocument place document = .ok f) : ∃ ds, Documented f ds := by
  obtain ⟨settings, _, h⟩ := bind_eq_ok.1 h
  obtain ⟨es, hes, h⟩ := bind_eq_ok.1 h
  obtain ⟨names, hnames, h⟩ := bind_eq_ok.1 h
  obtain ⟨query, _, h⟩ := bind_eq_ok.1 h
  obtain ⟨mutation, _, h⟩ := bind_eq_ok.1 h
  obtain ⟨type, _, h⟩ := bind_eq_ok.1 h
  obtain ⟨resolver, _, h⟩ := bind_eq_ok.1 h
  cases h
  have hgiven := not_isBlankText_of_textEntries hes
  obtain ⟨ds, hds, rfl⟩ := exists_documents hgiven hnames
  exact ⟨ds, hgiven, hds, uniqueKeys_documents ds⟩

theorem Configured.exists_documented (h : Configured f) : ∃ ds, Documented f ds := by
  obtain ⟨place, document, source, h⟩ := h
  obtain ⟨written, hwritten, h⟩ := bind_eq_ok.1 h
  obtain ⟨ds, hds⟩ := exists_documented_ofDocument hwritten
  split at h
  · cases h
    exact ⟨ds, hds⟩
  · cases h
    exact ⟨ds, hds.given, hds.parses, hds.told⟩

/-- What a fragment contributes defines what one of its entries does. -/
theorem Documented.mem_objectTypeNames_iff (h : Documented f ds) {n : String} :
    n ∈ ds.flatMap Document.objectTypeNames
      ↔ ∃ e ∈ f.definition, ∃ d, parse e = .ok d ∧ n ∈ Document.objectTypeNames d := by
  have hparses := h.parses
  clear h
  generalize f.definition = es at hparses
  induction hparses with
  | nil => simp
  | @cons e d es ds hparse _ ih =>
      have hhead : n ∈ Document.objectTypeNames d
          ↔ ∃ d', parse e = .ok d' ∧ n ∈ Document.objectTypeNames d' := by
        refine ⟨fun hn => ⟨d, hparse, hn⟩, ?_⟩
        rintro ⟨d', hd', hn⟩
        rw [hparse] at hd'
        cases hd'
        exact hn
      rw [List.flatMap_cons, List.mem_append, List.exists_mem_cons_iff]
      exact or_congr hhead ih

theorem definition_concat (fs : List Fragment) (f : Fragment) :
    (merge (fs ++ [f])).definition = (merge fs).definition ++ f.definition := by
  rw [merge_definition, merge_definition, List.flatMap_append, List.flatMap_singleton]

theorem Documented.concat {ds' : List Document} (h : Documented (merge fs) ds)
    (h' : Documented f ds') : Documented (merge (fs ++ [f])) (ds ++ ds') := by
  refine ⟨?_, ?_, ?_⟩
  · rw [definition_concat]
    exact List.forall_mem_append.2 ⟨h.given, h'.given⟩
  · rw [definition_concat]
    exact List.rel_append h.parses h'.parses
  · have htold := h.told
    rw [merge_objectTypes] at htold ⊢
    rw [List.flatMap_append, List.flatMap_singleton, ← Morph.uniqueKeys_append_left, htold, h'.told,
      Morph.uniqueKeys_append_left, Morph.uniqueKeys_append_right, List.flatMap_append,
      List.map_append]

theorem exists_documented_merge (h : ∀ f ∈ fs, Configured f) : ∃ ds, Documented (merge fs) ds := by
  induction fs using List.reverseRecOn with
  | nil => exact ⟨[], List.forall_mem_nil _, .nil, rfl⟩
  | append_singleton fs f ih =>
      obtain ⟨ds, hds⟩ := ih fun f' hf' => h f' (List.mem_append_left _ hf')
      obtain ⟨ds', hds'⟩ := (h f (List.mem_append_right _ List.mem_cons_self)).exists_documented
      exact ⟨ds ++ ds', hds.concat hds'⟩

-- ========================================================== faithfulness

theorem not_isBlankText_joined {es : List String} (hsome : es ≠ [])
    (hgiven : ∀ e ∈ es, Text.isBlankText e = false) : Text.isBlankText (joined es) = false := by
  obtain ⟨e, es, rfl⟩ := List.exists_cons_of_ne_nil hsome
  have he := hgiven e List.mem_cons_self
  unfold joined
  cases es with
  | nil => rwa [String.intercalate_singleton]
  | cons e' es =>
      unfold Text.isBlankText at he ⊢
      rw [String.intercalate_cons_cons, String.toList_append, String.toList_append, List.all_append,
        List.all_append, he]
      rfl

/-- A fragment is faithful if its text is its documents one after another. -/
theorem Documented.faithful (h : Documented f ds)
    (hparse : f.definition ≠ [] → parse f.definitionText = .ok ds.flatten) : f.Faithful := by
  have htold : f.objectTypes
      = (Morph.uniqueNames (Document.objectTypeNames ds.flatten)).map Key.ofText := by
    rw [h.told, Morph.uniqueKeys_ofText, Document.objectTypeNames_flatten]
  have htext : Morph.objectTypes f.definitionText
      = .ok (Morph.uniqueNames (Document.objectTypeNames ds.flatten)) := by
    by_cases hsome : f.definition = []
    · have hparses := h.parses
      rw [hsome, List.forall₂_nil_left_iff] at hparses
      subst hparses
      unfold definitionText
      rw [hsome]
      rfl
    · exact (objectTypes_eq_ok (not_isBlankText_joined hsome h.given)).2 ⟨_, hparse hsome, rfl⟩
  obtain ⟨u, hu⟩ := Morph.exists_unionOf (Morph.uniqueNames (Document.objectTypeNames ds.flatten))
  refine ⟨⟨_, htext, htold⟩, u, ?_, ?_⟩
  · unfold Morph.unionOfText
    rw [htext]
    exact hu
  · have hmembers : f.morphMembers = f.objectTypes := by
      unfold morphMembers
      rw [h.told, Morph.uniqueKeys_uniqueKeys]
    unfold morphUnion
    rw [hmembers, htold]
    exact hu

/-- The entries of a fragment, joined, if all seams hold. -/
theorem Documented.joins (h : Documented f ds) (hseams : f.definition.IsChain Seam) {last : String}
    (hlast : last ∈ f.definition.getLast?) :
    ∃ first, Graphql.Joins first last ds.flatten f.definitionText := by
  have hparses := h.parses
  unfold definitionText
  cases hdefinition : f.definition with
  | nil =>
      rw [hdefinition] at hlast
      cases hlast
  | cons e es =>
      rw [hdefinition] at hparses hseams hlast
      have hsame : (e :: es).getLast (List.cons_ne_nil e es) = last := by
        rw [List.getLast?_eq_getLast_of_ne_nil (List.cons_ne_nil e es)] at hlast
        exact Option.some.inj hlast
      exact ⟨e, hsame ▸ Graphql.joins_joined hparses hseams⟩

theorem Documented.faithful_of_seams (h : Documented f ds) (hseams : f.definition.IsChain Seam) :
    f.Faithful := by
  refine h.faithful fun hsome => ?_
  obtain ⟨first, hjoins⟩ := h.joins hseams (List.getLast?_eq_getLast_of_ne_nil hsome)
  exact hjoins.parse

-- ===================================================== what may come next

/-- The fragment of entries that define these object types, and of nothing
else. -/
def ofEntries (es : List String) (names : List (List String)) : Fragment :=
  { definition := es, objectTypes := Morph.uniqueKeys (names.flatten.map Key.ofText) }

/-- A document that gives a single text of definitions. -/
theorem ofDocument_entry {e : String} {d : Document} (hgiven : Text.isBlankText e = false)
    (h : parse e = .ok d) :
    ofDocument 0 (.map [("definition", .str e)])
      = .ok (ofEntries [e] [Morph.uniqueNames (Document.objectTypeNames d)]) := by
  have hsome : (Value.str e).isGiven = true := by
    refine bne_iff_ne.2 ?_
    rintro rfl
    cases hgiven
  have htext : textEntry? (.str e) = .ok (some e) := by
    show Except.ok (if Text.isBlankText e = true then none else some e) = _
    rw [hgiven]
    rfl
  have hentries : textEntries (.str e) = .ok [e] := by
    unfold textEntries
    rw [hsome]
    show ([Value.str e].mapM textEntry? >>= fun read => pure (read.filterMap id)) = _
    rw [List.mapM_cons, htext]
    rfl
  have hnames : [e].mapM Morph.objectTypes
      = .ok [Morph.uniqueNames (Document.objectTypeNames d)] := by
    rw [List.mapM_cons, (objectTypes_eq_ok hgiven).2 ⟨d, h, rfl⟩]
    rfl
  show (textEntries (.str e) >>= fun es => es.mapM Morph.objectTypes >>= fun names =>
    .ok (ofEntries es names)) = _
  rw [hentries]
  show ([e].mapM Morph.objectTypes >>= fun names => .ok (ofEntries [e] names)) = _
  rw [hnames]
  rfl

theorem configured_entry {e : String} {d : Document} (hgiven : Text.isBlankText e = false)
    (h : parse e = .ok d) :
    Configured (ofEntries [e] [Morph.uniqueNames (Document.objectTypeNames d)]) := by
  refine ⟨0, .map [("definition", .str e)], {}, ?_⟩
  unfold ofSource
  rw [ofDocument_entry hgiven h]
  rfl

/-- A document is configured as an entry of its own. -/
theorem exists_configured {e : String} {d : Document} (hgiven : Text.isBlankText e = false)
    (h : parse e = .ok d) : ∃ f, Configured f ∧ Documented f [d] ∧ f.definition = [e] := by
  refine ⟨_, configured_entry hgiven h, ⟨fun e' he' => ?_, .cons h .nil, ?_⟩, rfl⟩
  · cases List.mem_singleton.1 he'
    exact hgiven
  · exact uniqueKeys_documents [d]

/-- A name that is none of these. -/
theorem exists_fresh (names : List String) :
    ∃ n, isName n = true ∧ n ∉ names ∧ ∀ c ∈ n.toList, c = 'X' := by
  let letters := List.replicate (names.flatMap String.toList).length 'X'
  refine ⟨String.ofList ('X' :: letters), ?_, fun hmem => ?_, fun c hc => ?_⟩
  · refine Graphql.isName_iff.2 ⟨'X', letters, String.toList_ofList, by decide, fun c hc => ?_⟩
    rw [List.eq_of_mem_replicate hc]
    decide
  · have hle := Graphql.Parser.length_le_flatMap_of_mem String.toList hmem
    rw [String.toList_ofList, List.length_cons, List.length_replicate] at hle
    omega
  · rw [String.toList_ofList] at hc
    rcases List.mem_cons.1 hc with rfl | hc
    · rfl
    · exact List.eq_of_mem_replicate hc

/-- An entry put after others is put after their text. -/
theorem definitionText_concat (hsome : (merge fs).definition ≠ []) {e : String}
    (h : f.definition = [e]) :
    (merge (fs ++ [f])).definitionText = (merge fs).definitionText ++ " " ++ e := by
  unfold definitionText joined
  rw [definition_concat, h, String.intercalate_append_of_ne_nil hsome (List.cons_ne_nil e []),
    String.intercalate_singleton]

theorem ofText_injective : Function.Injective Key.ofText := fun _ _ h => by cases h; rfl

section

variable (h : Documented (merge fs) ds)
  (hnext : ∀ f, Configured f → f.definition.IsChain Seam → (merge (fs ++ [f])).Faithful)

include h hnext

/-- If all that is contributed next is found in the text, then so is an
entry. -/
theorem Documented.exists_parse (hsome : (merge fs).definition ≠ []) {e : String} {d : Document}
    (hgiven : Text.isBlankText e = false) (he : parse e = .ok d) :
    ∃ d', parse ((merge fs).definitionText ++ " " ++ e) = .ok d'
      ∧ Morph.uniqueNames ((ds ++ [d]).flatMap Document.objectTypeNames)
        = Morph.uniqueNames (Document.objectTypeNames d') := by
  obtain ⟨f, hf, hdocumented, hdefinition⟩ := exists_configured hgiven he
  have hall := h.concat hdocumented
  have hseams : f.definition.IsChain Seam := hdefinition ▸ List.IsChain.singleton e
  have hmore : (merge (fs ++ [f])).definition ≠ [] := by
    rw [definition_concat]
    exact List.append_ne_nil_of_left_ne_nil hsome _
  obtain ⟨names, htext, htold⟩ := (hnext f hf hseams).objectTypes
  obtain ⟨d', hd', rfl⟩ := (objectTypes_eq_ok (not_isBlankText_joined hmore hall.given)).1 htext
  change parse (merge (fs ++ [f])).definitionText = _ at hd'
  rw [definitionText_concat hsome hdefinition] at hd'
  rw [hall.told, Morph.uniqueKeys_ofText] at htold
  exact ⟨d', hd', List.map_injective_iff.2 ofText_injective htold⟩

variable {first last : String}

/-- The last entry leaves no comment open: a type on a single line would be
lost. -/
theorem Documented.leavesComment_eq_false (hsome : (merge fs).definition ≠ [])
    (hjoins : Graphql.Joins first last ds.flatten (merge fs).definitionText) :
    leavesComment last = false := by
  cases hopen : leavesComment last with
  | false => rfl
  | true =>
      obtain ⟨n, hname, hnew, hletters⟩ :=
        exists_fresh (Morph.rootQuery :: Document.objectTypeNames ds.flatten)
      have hline : ∀ c ∈ ("type " ++ n).toList, c ≠ '\n' ∧ c ≠ '\r' := by
        rw [String.toList_append]
        refine List.forall_mem_append.2 ⟨by simp, fun c hc => ?_⟩
        rw [hletters c hc]
        decide
      have hgiven : Text.isBlankText ("type " ++ n) = false := by
        unfold Text.isBlankText
        rw [String.toList_append, List.all_append]
        rfl
      obtain ⟨d', hd', hnames⟩ := h.exists_parse hnext hsome hgiven (Graphql.parse_type hname)
      rw [Graphql.parse_swallowed hjoins.parse (hjoins.comment.trans hopen) hline] at hd'
      cases hd'
      rw [List.mem_cons, not_or] at hnew
      have hmem : n ∈ Morph.uniqueNames ((ds ++ [[Definition.type ⟨none, n, [], .object [] []⟩]]).flatMap
          Document.objectTypeNames) := by
        rw [Morph.mem_uniqueNames, List.flatMap_append]
        exact ⟨List.mem_append_right _ List.mem_cons_self, hnew.1⟩
      rw [hnames, Morph.mem_uniqueNames] at hmem
      exact absurd hmem.1 hnew.2

/-- The last entry is complete: where it leaves a body open, a query would be
refused. -/
theorem Documented.complete (hsome : (merge fs).definition ≠ [])
    (hjoins : Graphql.Joins first last ds.flatten (merge fs).definitionText) : Complete last := by
  have hclosed := h.leavesComment_eq_false hnext hsome hjoins
  refine ⟨hclosed, ?_⟩
  cases hawaits : awaitsBody last with
  | false => rfl
  | true =>
      obtain ⟨d', hd', -⟩ := h.exists_parse hnext hsome (by decide)
        Graphql.reads_fragmentQuery.parse_eq
      exact absurd hd' (Graphql.parse_refused hjoins.parse (hjoins.comment.trans hclosed)
        (hjoins.body.trans hawaits) d')

end

/-- The text of definitions tells the object types of a merged fragment, if
its seams hold. It does so whatever is contributed next, exactly if its last
entry is complete. -/
theorem definitionText_faithful {fs : List Fragment} (hfs : ∀ f ∈ fs, Configured f)
    (hseams : (merge fs).definition.IsChain Seam) :
    (merge fs).Faithful
      ∧ ((∀ f, Configured f → f.definition.IsChain Seam → (merge (fs ++ [f])).Faithful)
        ↔ ∀ e ∈ (merge fs).definition.getLast?, Complete e) := by
  obtain ⟨ds, hds⟩ := exists_documented_merge hfs
  refine ⟨hds.faithful_of_seams hseams, fun hnext e he => ?_, fun hlast f hf hown => ?_⟩
  · obtain ⟨first, hjoins⟩ := hds.joins hseams he
    refine hds.complete hnext (fun hnil => ?_) hjoins
    rw [hnil] at he
    cases he
  · obtain ⟨ds', hds'⟩ := hf.exists_documented
    refine (hds.concat hds').faithful_of_seams ?_
    rw [definition_concat]
    exact List.isChain_append.2 ⟨hseams, hown, fun e he e' _ => (hlast e he).seam e'⟩

/-- Two types, each contributed on its own; the comment of the first ends
with its line. -/
def letterFragments : List Fragment :=
  [ofEntries ["type A \x7b a: Int \x7d # one\n"] [["A"]], ofEntries ["type B \x7b b: Int \x7d"] [["B"]]]

theorem configured_letterFragments : ∀ f ∈ letterFragments, Configured f := by
  refine List.forall_mem_cons.2 ⟨⟨0, .map [("definition", .str "type A \x7b a: Int \x7d # one\n")],
    {}, by decide +kernel⟩, List.forall_mem_singleton.2 ⟨1, .map [("definition",
    .str "type B \x7b b: Int \x7d")], {}, by decide +kernel⟩⟩

theorem definitionText_faithful_letters :
    (∀ f ∈ letterFragments, Configured f) ∧ (merge letterFragments).definition.IsChain Seam
      ∧ (merge letterFragments).Faithful
      ∧ ((∀ f, Configured f → f.definition.IsChain Seam → (merge (letterFragments ++ [f])).Faithful)
        ↔ ∀ e ∈ (merge letterFragments).definition.getLast?, Complete e) := by
  have hcomplete : Complete "type A \x7b a: Int \x7d # one\n" :=
    ⟨by decide +kernel, by decide +kernel⟩
  have hseams : (merge letterFragments).definition.IsChain Seam :=
    List.isChain_pair.2 (hcomplete.seam _)
  exact ⟨configured_letterFragments, hseams,
    definitionText_faithful configured_letterFragments hseams⟩

/-- The same two types, the first with a comment that nothing ends. -/
def notedFragments : List Fragment :=
  [ofEntries ["type A \x7b a: Int \x7d # one"] [["A"]], ofEntries ["type B \x7b b: Int \x7d"] [["B"]]]

/-- The second type is told, and is lost in the text. -/
theorem noted_type_lost :
    (∀ f ∈ notedFragments, Configured f)
      ∧ (merge notedFragments).objectTypes = ["A", "B"].map Key.ofText
      ∧ Morph.objectTypes (merge notedFragments).definitionText = .ok ["A"]
      ∧ ¬ (merge notedFragments).Faithful := by
  have hconfigured : ∀ f ∈ notedFragments, Configured f :=
    List.forall_mem_cons.2 ⟨⟨0, .map [("definition", .str "type A \x7b a: Int \x7d # one")], {},
      by decide +kernel⟩, List.forall_mem_singleton.2 ⟨1, .map [("definition",
      .str "type B \x7b b: Int \x7d")], {}, by decide +kernel⟩⟩
  have htold : (merge notedFragments).objectTypes = ["A", "B"].map Key.ofText := by decide +kernel
  have htext : Morph.objectTypes (merge notedFragments).definitionText = .ok ["A"] := by
    decide +kernel
  refine ⟨hconfigured, htold, htext, fun hfaithful => ?_⟩
  obtain ⟨names, hnames, hsame⟩ := hfaithful.objectTypes
  rw [htext] at hnames
  cases hnames
  rw [htold] at hsame
  exact absurd (congrArg List.length hsame) (by decide)

end Fragment

end ModelSchema
