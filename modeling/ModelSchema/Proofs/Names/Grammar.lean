/-
When derived names are names. The global id that a model name stands for has
the letters and digits of that name, in order (`folded_upperCamel`), so it is
a GraphQL name exactly if the first of them is a letter. The rules of
inflection keep the start of a word, or put letters in its place, so plurals
and singulars of such a word are such words again, but for the word that is
nothing but an s, which has an empty singular (`word_singularize`). Names
with these two exceptions apart, all names of a model are GraphQL names, and
with them not all are (`names_valid_iff`).
-/
import ModelSchema.Model.Basic
import ModelSchema.Proofs.Names.Entries
import ModelSchema.Proofs.Reading.Entries

namespace ModelSchema

open Graphql (isName isNameStart isNamePart isName_iff)

namespace Naming

-- ================================================================= words

/-- Whether characters are letters and digits, a letter first. -/
def Word (cs : List Char) : Prop :=
  (∀ c ∈ cs, c.isAlphanum = true) ∧ ∃ c rest, cs = c :: rest ∧ c.isAlpha = true

theorem isAlphanum_of_isAlpha {c : Char} (h : c.isAlpha = true) : c.isAlphanum = true := by
  unfold Char.isAlphanum
  rw [h, Bool.true_or]

/-- A word is a name. -/
theorem Word.isName {s : String} (h : Word s.toList) : isName s = true := by
  obtain ⟨hall, c, rest, hs, hc⟩ := h
  refine isName_iff.2 ⟨c, rest, hs, ?_, fun d hd => isNamePart_of_isAlphanum (hall d ?_)⟩
  · unfold isNameStart
    rw [hc, Bool.true_or]
  · rw [hs]
    exact List.mem_cons_of_mem c hd

/-- The start of a word with letters after it is a word, if the letters are
some or the start is. -/
theorem Word.replaceEnd {cs : List Char} (h : Word cs) {n : Nat} {ending : List Char}
    (hletters : ∀ c ∈ ending, c.isAlpha = true) (hsome : n ≠ 0 ∨ ending ≠ []) :
    Word (cs.take n ++ ending) := by
  obtain ⟨hall, c, rest, rfl, hc⟩ := h
  refine ⟨fun d hd => ?_, ?_⟩
  · rcases List.mem_append.1 hd with hd | hd
    · exact hall d (List.mem_of_mem_take hd)
    · exact isAlphanum_of_isAlpha (hletters d hd)
  · cases n with
    | succ n => exact ⟨c, rest.take n ++ ending, rfl, hc⟩
    | zero =>
        cases ending with
        | nil => exact absurd rfl (hsome.resolve_left (· rfl))
        | cons d ending => exact ⟨d, ending, rfl, hletters d List.mem_cons_self⟩

/-- A word less its third and fourth characters is a word. -/
theorem Word.cut {cs : List Char} (h : Word cs) : Word (cs.take 2 ++ cs.drop 4) := by
  obtain ⟨hall, c, rest, rfl, hc⟩ := h
  refine ⟨fun d hd => ?_, c, rest.take 1 ++ rest.drop 3, rfl, hc⟩
  rcases List.mem_append.1 hd with hd | hd
  · exact hall d (List.mem_of_mem_take hd)
  · exact hall d (List.mem_of_mem_drop hd)

-- ================================================================= rules

/-- What a rule makes of a word: one of its forms fits the end of the word,
and the ending of the rule replaces the lost part. -/
theorem Rule.exists_form {r : Rule} {cs out : List Char} (h : r.apply? cs = some out) :
    ∃ f ∈ r.forms, endsIn (f.kept ++ f.lost) cs = true
      ∧ out = cs.take (cs.length - f.lost.length) ++ r.ending.toList := by
  obtain ⟨f, hf, rfl⟩ := Option.map_eq_some_iff.1 h
  suffices hform : f ∈ r.forms ∧ endsIn (f.kept ++ f.lost) cs = true from
    ⟨f, hform.1, hform.2, rfl⟩
  -- whichever form is the best so far, it is one of the rule's and it fits
  refine List.foldlRecOn (motive := fun best => ∀ f, best = some f →
    f ∈ r.forms ∧ endsIn (f.kept ++ f.lost) cs = true) r.forms _ ?_ ?_ f hf
  · intro f hf
    cases hf
  · intro best hbest g hg f hf
    dsimp only at hf
    split at hf
    · next hfits =>
        have hfits : endsIn (g.kept ++ g.lost) cs = true := (Bool.and_eq_true_iff.1 hfits).1
        split at hf
        · split at hf
          · cases hf
            exact ⟨hg, hfits⟩
          · exact hbest f hf
        · cases hf
          exact ⟨hg, hfits⟩
    · exact hbest f hf

/-- Whether a rule leaves something of every word: its ending is of letters,
and where that is empty its forms keep something. -/
def Rule.leavesWords (r : Rule) : Bool :=
  r.ending.toList.all Char.isAlpha
    && r.forms.all fun f => !f.kept.isEmpty || !r.ending.toList.isEmpty

/-- Such a rule makes words of words. -/
theorem Rule.word_of_apply {r : Rule} (hr : r.leavesWords = true) {cs out : List Char}
    (hword : Word cs) (h : r.apply? cs = some out) : Word out := by
  obtain ⟨f, hf, hends, rfl⟩ := Rule.exists_form h
  unfold Rule.leavesWords at hr
  rw [Bool.and_eq_true, List.all_eq_true, List.all_eq_true] at hr
  refine hword.replaceEnd hr.1 ?_
  have hlength : (f.kept ++ f.lost).length ≤ cs.length := by
    unfold endsIn at hends
    rw [Bool.and_eq_true, decide_eq_true_eq] at hends
    exact hends.1
  rw [List.length_append] at hlength
  have hf := hr.2 f hf
  rw [Bool.or_eq_true] at hf
  rcases hf with hkept | hending
  · left
    have hpos : f.kept.length ≠ 0 := by simpa using hkept
    omega
  · right
    simpa using hending

/-- All rules of plurals leave something of a word. -/
theorem leavesWords_plurals : ∀ r ∈ pluralTable, r.leavesWords = true :=
  List.all_eq_true.1 (by decide +kernel)

theorem leavesWords_singularsBefore : ∀ r ∈ singularTableBefore, r.leavesWords = true :=
  List.all_eq_true.1 (by decide +kernel)

/-- The last rule of singulars, which takes an s away. -/
def lastSingularRule : Rule := rule [""] ["s"] ""

/-- All rules of singulars but the last leave something of a word. -/
theorem leavesWords_singularsAfter :
    ∀ r ∈ singularTableAfter, r.leavesWords = true ∨ r = lastSingularRule := by
  have hrules : singularTableAfter = singularTableAfter.dropLast ++ [lastSingularRule] := rfl
  have hleave : ∀ r ∈ singularTableAfter.dropLast, r.leavesWords = true :=
    List.all_eq_true.1 (by decide +kernel)
  intro r hr
  rw [hrules, List.mem_append, List.mem_singleton] at hr
  exact hr.imp_left (hleave r)

/-- The last rule of singulars makes words of words of more than one
letter. -/
theorem lastSingularRule_word {cs out : List Char} (hword : Word cs)
    (h : lastSingularRule.apply? cs = some out) (hs : cs.map Char.toLower ≠ ['s']) :
    Word out := by
  obtain ⟨f, hf, hends, rfl⟩ := Rule.exists_form h
  have hform : f = ⟨[], [.oneOf ['s']]⟩ := List.mem_singleton.1 hf
  subst hform
  obtain ⟨hall, c, rest, rfl, hc⟩ := hword
  refine Word.replaceEnd ⟨hall, c, rest, rfl, hc⟩ (fun d hd => by cases hd)
    (.inl fun hzero => hs ?_)
  -- a word of one letter that the rule speaks of is an s
  have hrest : rest = [] := by
    have hzero : rest.length + 1 - 1 = 0 := hzero
    exact List.length_eq_zero_iff.1 hzero
  subst hrest
  have hfits : isOneOf ['s'] c = true :=
    (Bool.and_eq_true_iff.1 (Bool.and_eq_true_iff.1 hends).2).1
  have hlower : c.toLower = 's' :=
    forall_isAlphanum (P := fun c => isOneOf ['s'] c = true → c.toLower = 's')
      (by decide +kernel) (isAlphanum_of_isAlpha hc) hfits
  rw [List.map_cons, hlower]
  rfl

-- ============================================================ inflections

theorem splitLineFeed_of_word {cs : List Char} (h : Word cs) : splitLineFeed cs = (cs, []) := by
  unfold splitLineFeed
  rw [if_neg]
  intro hlast
  have hfeed := h.1 _ (List.mem_of_getLast? hlast)
  cases hfeed

/-- The plural of a word is a word. -/
theorem word_pluralize {s : String} (h : Word s.toList) : Word (pluralize s).toList := by
  unfold pluralize
  split
  · exact h
  · rw [splitLineFeed_of_word h]
    dsimp only
    cases hrule : firstRule? pluralTable s.toList with
    | some out =>
        obtain ⟨r, hr, happly⟩ := List.exists_of_findSome?_eq_some hrule
        dsimp only
        rw [String.toList_ofList, List.append_nil]
        exact Rule.word_of_apply (leavesWords_plurals r hr) h happly
    | none =>
        have hletter : ∀ c ∈ ['s'], c.isAlpha = true := List.forall_mem_singleton.2 rfl
        have hlong : Word (s.toList.take s.toList.length ++ ['s']) :=
          h.replaceEnd hletter (.inr (List.cons_ne_nil _ _))
        rw [List.take_length] at hlong
        dsimp only
        rw [String.toList_ofList]
        exact hlong

/-- The singular of a word is a word, but for the s alone. -/
theorem word_singularize {s : String} (h : Word s.toList)
    (hs : s.toList.map Char.toLower ≠ ['s']) : Word (singularize s).toList := by
  unfold singularize
  dsimp only
  split
  · exact h
  · rw [splitLineFeed_of_word h]
    dsimp only
    cases hbefore : firstRule? singularTableBefore s.toList with
    | some out =>
        obtain ⟨r, hr, happly⟩ := List.exists_of_findSome?_eq_some hbefore
        dsimp only
        rw [String.toList_ofList, List.append_nil]
        exact Rule.word_of_apply (leavesWords_singularsBefore r hr) h happly
    | none =>
        dsimp only
        split
        · rw [String.toList_ofList]
          exact h.cut
        · cases hafter : firstRule? singularTableAfter s.toList with
          | none => exact h
          | some out =>
              obtain ⟨r, hr, happly⟩ := List.exists_of_findSome?_eq_some hafter
              dsimp only
              rw [String.toList_ofList, List.append_nil]
              rcases leavesWords_singularsAfter r hr with hleaves | rfl
              · exact Rule.word_of_apply hleaves h happly
              · exact lastSingularRule_word h happly hs

-- ============================================================ folded names

/-- The letters and digits of a name, in lower case. -/
def folded (s : String) : List Char := (s.toList.filter isNameChar).map Char.toLower

/-- The runs of a name hold its letters and digits, in order. -/
theorem flatten_runsFrom (opened cs : List Char) :
    (runsFrom opened cs).flatten = opened.reverse ++ cs.filter isNameChar := by
  induction cs generalizing opened with
  | nil =>
      rw [runsFrom, List.filter_nil, List.append_nil]
      split
      · next hempty =>
          rw [List.isEmpty_iff.1 hempty]
          rfl
      · exact List.flatten_singleton
  | cons c cs ih =>
      rw [runsFrom]
      split
      · next hname =>
          rw [ih, List.filter_cons_of_pos hname, List.reverse_cons, List.append_assoc]
          rfl
      · next hname =>
          rw [List.filter_cons_of_neg hname]
          split
          · next hempty =>
              rw [ih, List.isEmpty_iff.1 hempty]
          · rw [List.flatten_cons, ih]
            rfl

theorem toLower_toLower {c : Char} (h : c.isAlphanum = true) : c.toLower.toLower = c.toLower :=
  forall_isAlphanum (P := fun c => c.toLower.toLower = c.toLower) (by decide) h

theorem toLower_of_toUpper {c : Char} (h : c.isAlphanum = true) : c.toUpper.toLower = c.toLower :=
  forall_isAlphanum (P := fun c => c.toUpper.toLower = c.toLower) (by decide) h

theorem map_toLower_capitalize {run : List Char} (h : ∀ c ∈ run, c.isAlphanum = true) :
    (capitalize run).map Char.toLower = run.map Char.toLower := by
  cases run with
  | nil => rfl
  | cons c rest =>
      rw [capitalize, List.map_cons, toLower_of_toUpper (h c List.mem_cons_self), List.map_cons]

theorem map_toLower_uncapitalize {run : List Char} (h : ∀ c ∈ run, c.isAlphanum = true) :
    (uncapitalize run).map Char.toLower = run.map Char.toLower := by
  cases run with
  | nil => rfl
  | cons c rest =>
      rw [uncapitalize, List.map_cons, toLower_toLower (h c List.mem_cons_self), List.map_cons]

/-- Camel case keeps the letters and digits of a name, but for their case. -/
theorem map_toLower_camelCase (s : String) :
    (camelCase s).toList.map Char.toLower = folded s := by
  have hruns := runsFrom_spec [] s.toList fun c hc => (by cases hc)
  have hflat := flatten_runsFrom [] s.toList
  change ∀ run ∈ runs s.toList, _ at hruns
  change (runs s.toList).flatten = s.toList.filter isNameChar at hflat
  unfold camelCase camelChars folded
  rw [String.toList_ofList, ← hflat]
  cases hcs : runs s.toList with
  | nil => rfl
  | cons first rest =>
      rw [hcs] at hruns
      have hfirst := map_toLower_uncapitalize (hruns first List.mem_cons_self).2
      have hrest : rest.map (List.map Char.toLower ∘ capitalize)
          = rest.map (List.map Char.toLower) :=
        List.map_congr_left fun run hrun =>
          map_toLower_capitalize (hruns run (List.mem_cons_of_mem first hrun)).2
      dsimp only
      rw [List.map_append, hfirst, List.flatMap_def, List.map_flatten, List.map_map, hrest,
        ← List.map_flatten, List.flatten_cons, List.map_append]

/-- So does camel case with a capital at the start. -/
theorem folded_upperCamel (s : String) : (upperCamel s).toList.map Char.toLower = folded s := by
  have hsmall := smallStart_camelCase s
  have hcamel := map_toLower_camelCase s
  unfold upperCamel
  rw [toList_upperFirst hsmall]
  cases hs : (camelCase s).toList with
  | nil =>
      rw [hs] at hcamel
      exact hcamel
  | cons c rest =>
      rw [hs] at hcamel
      dsimp only
      rw [List.map_cons, toLower_of_toUpper (isAlphanum_of_isSmall (hsmall c rest hs)),
        ← List.map_cons, hcamel]

theorem isAlphanum_upperCamel (s : String) : ∀ c ∈ (upperCamel s).toList, c.isAlphanum = true := by
  have hsmall := smallStart_camelCase s
  have hcamel := isAlphanum_camelCase s
  unfold upperCamel
  rw [toList_upperFirst hsmall]
  cases hs : (camelCase s).toList with
  | nil => exact fun c hc => (by cases hc)
  | cons c rest =>
      rw [hs] at hcamel
      exact isAlphanum_capitalize hcamel

/-- Whether the first of some characters is a small letter. -/
def startsSmall (cs : List Char) : Bool := cs.head?.any Char.isLower

/-- Letters and digits are a word if the first is a letter. -/
theorem word_iff {cs : List Char} (h : ∀ c ∈ cs, c.isAlphanum = true) :
    Word cs ↔ startsSmall (cs.map Char.toLower) = true := by
  constructor
  · rintro ⟨_, c, rest, rfl, hc⟩
    exact forall_isAlphanum (P := fun c => c.isAlpha = true → c.toLower.isLower = true)
      (by decide) (isAlphanum_of_isAlpha hc) hc
  · intro hstart
    cases cs with
    | nil => cases hstart
    | cons c rest =>
        refine ⟨h, c, rest, rfl, ?_⟩
        exact forall_isAlphanum (P := fun c => c.toLower.isLower = true → c.isAlpha = true)
          (by decide) (h c List.mem_cons_self) hstart

/-- Letters and digits are a name only if they are a word. -/
theorem word_of_isName {s : String} (h : ∀ c ∈ s.toList, c.isAlphanum = true)
    (hname : Graphql.isName s = true) : Word s.toList := by
  obtain ⟨c, rest, hs, hstart, _⟩ := isName_iff.1 hname
  have hc : c.isAlphanum = true := h c (by rw [hs]; exact List.mem_cons_self)
  refine ⟨h, c, rest, hs, ?_⟩
  exact forall_isAlphanum (P := fun c => c.isAlphanum = true → isNameStart c = true →
    c.isAlpha = true) (by decide) hc hc hstart

/-- A name in camel case is a GraphQL name if the first letter or digit is a
letter. -/
theorem isName_camelCase {s : String} (h : startsSmall (folded s) = true) :
    Graphql.isName (camelCase s) = true := by
  rw [← map_toLower_camelCase] at h
  exact ((word_iff (isAlphanum_camelCase s)).2 h).isName

theorem word_upperCamel_iff (s : String) :
    Word (upperCamel s).toList ↔ startsSmall (folded s) = true := by
  rw [word_iff (isAlphanum_upperCamel s), folded_upperCamel]

/-- Folding letters and digits is lower case alone. -/
theorem folded_of_isAlphanum {s : String} (h : ∀ c ∈ s.toList, c.isAlphanum = true) :
    folded s = s.toList.map Char.toLower := by
  have hall : s.toList.filter isNameChar = s.toList := List.filter_eq_self.2 h
  unfold folded
  rw [hall]

theorem Word.isName_camelCase {s : String} (h : Word s.toList) :
    Graphql.isName (camelCase s) = true := by
  refine Naming.isName_camelCase ?_
  rw [folded_of_isAlphanum h.1]
  exact (word_iff h.1).1 h

/-- The plural of a word is a name. -/
theorem Word.isName_toPlural {s : String} (h : Word s.toList) :
    Graphql.isName (toPlural s) = true := by
  unfold toPlural
  split
  · exact h.isName_camelCase
  · exact (word_pluralize h).isName_camelCase

/-- The singular of a word is a name, but for the s alone. -/
theorem Word.isName_toSingular {s : String} (h : Word s.toList)
    (hs : s.toList.map Char.toLower ≠ ['s']) : Graphql.isName (toSingular s) = true := by
  unfold toSingular
  split
  · exact h.isName_camelCase
  · exact (word_singularize h hs).isName_camelCase

/-- The s alone has an empty singular. -/
theorem toSingular_of_folded {name : String} (h : folded name = ['s']) :
    toSingular (upperCamel name) = "" := by
  have hfold := folded_upperCamel name
  have hchars := isAlphanum_upperCamel name
  rw [h] at hfold
  obtain ⟨c, hc, hlower⟩ := List.map_eq_singleton_iff.1 hfold
  have hcase : c = 's' ∨ c = 'S' :=
    forall_isAlphanum (P := fun c => c.toLower = 's' → c = 's' ∨ c = 'S') (by decide)
      (hchars c (by rw [hc]; exact List.mem_singleton_self c)) hlower
  have hname : upperCamel name = String.ofList [c] := by
    rw [← hc, String.ofList_toList]
  rw [hname]
  rcases hcase with rfl | rfl
  · decide +kernel
  · decide +kernel

end Naming

-- ========================================================= names of models

/-- A derived name is a name if its base is one. -/
theorem Role.isName_name (role : Role) {base : String} (h : isName base = true) :
    isName (role.name base) = true := by
  have hending : isName role.ending = true := by
    have endings : ∀ role ∈ all, isName role.ending = true := by decide +kernel
    exact endings role (mem_all role)
  have hlead : role.lead = "" ∨ isName role.lead = true := by
    have leads : ∀ role ∈ all, role.lead = "" ∨ isName role.lead = true := by decide +kernel
    exact leads role (mem_all role)
  unfold name
  refine isName_append ?_ (NamePart.of_isName hending)
  rcases hlead with hlead | hlead
  · rw [hlead, String.empty_append]
    exact h
  · exact isName_append hlead (NamePart.of_isName h)

namespace Model

/-- The names that a model has or that are derived for it, its enum types
and zones apart: its global id, the field of its payloads, its queries, its
mutations and its input types and payloads. -/
def names (m : Model) : List String :=
  m.globalId.text :: m.singular :: m.queryNames ++ m.mutationNames
    ++ m.derivedNames (inputRoles ++ m.mutationRoles)

/-- All names of a model are names if its global id, its singular and its
plural are. -/
theorem isName_names {m : Model} (hid : isName m.globalId.text = true)
    (hsingular : isName m.singular = true)
    (hplural : isName (Naming.toPlural m.globalId.text) = true) :
    ∀ s ∈ m.names, isName s = true := by
  have hqueries : ∀ s ∈ m.queryNames, isName s = true := by
    intro s hs
    unfold queryNames at hs
    split at hs
    · rw [List.mem_singleton.1 hs]
      exact hsingular
    · rcases List.mem_pair.1 hs with rfl | rfl
      · exact hsingular
      · unfold Compiler.listName
        split
        · exact isName_append hsingular (NamePart.of_isName rfl)
        · exact hplural
  have hmutations : ∀ s ∈ m.mutationNames, isName s = true := by
    intro s hs
    obtain ⟨action, _, rfl⟩ := List.mem_map.1 hs
    exact Compiler.isName_mutationName hsingular action
  have hderived : ∀ roles, ∀ s ∈ m.derivedNames roles, isName s = true := by
    intro roles s hs
    obtain ⟨role, _, rfl⟩ := List.mem_map.1 hs
    exact role.isName_name (Naming.isName_upperFirst hsingular)
  intro s hs
  unfold names at hs
  rcases List.mem_append.1 hs with hs | hs
  · rcases List.mem_append.1 hs with hs | hs
    · rcases List.mem_cons.1 hs with rfl | hs
      · exact hid
      · rcases List.mem_cons.1 hs with rfl | hs
        · exact hsingular
        · exact hqueries s hs
    · exact hmutations s hs
  · exact hderived _ s hs

/-- A model without a global id of its own has the one of its name. -/
theorem globalId_of_ofDefinition {name : String} {entries : List (String × Value)}
    {plugin : Value} {m : Model} (h : ofDefinition (.str name) (.map entries) plugin = .ok m)
    (hid : (Value.getD entries "globalId").isGiven = false) :
    m.globalId = .str (Naming.upperCamel name) := by
  unfold ofDefinition at h
  obtain ⟨settings, hsettings, h⟩ := bind_eq_ok.1 h
  cases hsettings
  obtain ⟨_, _, h⟩ := bind_eq_ok.1 h
  obtain ⟨_, _, h⟩ := bind_eq_ok.1 h
  dsimp only at h
  rw [hid, if_neg Bool.false_ne_true] at h
  obtain ⟨globalId, hglobalId, h⟩ := bind_eq_ok.1 h
  obtain ⟨_, _, h⟩ := bind_eq_ok.1 h
  cases h
  unfold Naming.globalIdFor Naming.camelCaseOf at hglobalId
  by_cases hgiven : (Value.str name).isGiven = true
  · rw [if_pos hgiven] at hglobalId
    cases hglobalId
    rfl
  · rw [if_neg hgiven] at hglobalId
    cases hglobalId
    have hempty : name = "" := by simpa [Value.isGiven] using hgiven
    subst hempty
    rfl

/-- The names that are derived from the name of a model, if its definition
gives no global id. The global id is that name in camel case with a capital
at the start. It and all other names of the model, and of its zones under
whatever attributes, are GraphQL names, exactly if the first letter or digit
of the name is a letter and the letter s is not all there is. -/
theorem names_valid_iff {name : String} {entries : List (String × Value)} {plugin : Value}
    {m : Model} (h : ofDefinition (.str name) (.map entries) plugin = .ok m)
    (hid : (Value.getD entries "globalId").isGiven = false) :
    m.globalId = .str (Naming.upperCamel name) ∧
      (((∀ s ∈ m.names, isName s = true)
          ∧ ∀ field, isName (Attribute.zoneName m.globalId field) = true) ↔
        Naming.startsSmall (Naming.folded name) = true ∧ Naming.folded name ≠ ['s']) := by
  have hglobalId := globalId_of_ofDefinition h hid
  have htext : m.globalId.text = Naming.upperCamel name := by rw [hglobalId]; rfl
  have hsingular : m.singular = Naming.toSingular (Naming.upperCamel name) := by
    unfold singular
    rw [htext]
  refine ⟨hglobalId, ?_, ?_⟩
  · rintro ⟨hnames, _⟩
    have hglobal : isName (Naming.upperCamel name) = true :=
      htext ▸ hnames _ List.mem_cons_self
    have hfield : isName m.singular = true :=
      hnames _ (List.mem_cons_of_mem _ List.mem_cons_self)
    refine ⟨?_, fun hfolded => ?_⟩
    · have hword := Naming.word_of_isName (Naming.isAlphanum_upperCamel name) hglobal
      exact (Naming.word_upperCamel_iff name).1 hword
    · rw [hsingular, Naming.toSingular_of_folded hfolded] at hfield
      cases hfield
  · rintro ⟨hstart, hlong⟩
    have hword := (Naming.word_upperCamel_iff name).2 hstart
    rw [← Naming.folded_upperCamel] at hlong
    have hname : isName m.globalId.text = true := htext ▸ hword.isName
    refine ⟨isName_names hname ?_ ?_, ?_⟩
    · rw [hsingular]
      exact hword.isName_toSingular hlong
    · rw [htext]
      exact hword.isName_toPlural
    · exact Attribute.isName_zoneName ⟨_, hglobalId, hword.isName⟩

/-- A model of posts has names. -/
theorem names_valid_iff_blogPosts :
    ∃ m, ofDefinition (.str "blog-posts") (.map [("kind", .str "collectionType")]) .null = .ok m
      ∧ (Value.getD [("kind", .str "collectionType")] "globalId").isGiven = false
      ∧ m.globalId = .str "BlogPosts"
      ∧ (∀ s ∈ m.names, isName s = true)
      ∧ ∀ field, isName (Attribute.zoneName m.globalId field) = true := by
  have hm : (ofDefinition (.str "blog-posts") (.map [("kind", .str "collectionType")])
      .null).toBool = true := by decide +kernel
  obtain ⟨m, hm⟩ := exists_of_toBool hm
  have hid : (Value.getD [("kind", .str "collectionType")] "globalId").isGiven = false := rfl
  obtain ⟨hglobalId, hvalid⟩ := names_valid_iff hm hid
  have hcamel : Naming.upperCamel "blog-posts" = "BlogPosts" := by decide +kernel
  obtain ⟨hnames, hzones⟩ := hvalid.2 (by decide +kernel)
  exact ⟨m, hm, hid, hcamel ▸ hglobalId, hnames, hzones⟩

/-- A name may have letters and digits and its model not even a global id
that is a name: it is taken to start with a digit. -/
theorem digit_name_invalid :
    ∃ m, ofDefinition (.str "2fa") (.map []) .null = .ok m
      ∧ (Value.getD [] "globalId").isGiven = false
      ∧ m.globalId = .str "2fa" ∧ isName m.globalId.text = false := by
  have hm : (ofDefinition (.str "2fa") (.map []) .null).toBool = true := by decide +kernel
  obtain ⟨m, hm⟩ := exists_of_toBool hm
  have hglobalId := globalId_of_ofDefinition hm rfl
  have hcamel : Naming.upperCamel "2fa" = "2fa" := by decide +kernel
  rw [hcamel] at hglobalId
  refine ⟨m, hm, rfl, hglobalId, ?_⟩
  rw [hglobalId]
  decide +kernel

end Model

end ModelSchema
