/-
The normal form of names. A name is spelled by runs of letters and digits,
with gaps of other characters between them, and by one list of runs only
(`spells_iff`). Camel case is put together from the runs, so it does not know
what stood in the gaps, and as a single run itself it is left alone when it
is taken again (`camelCase_normalForm`). The same characters come out when
the gaps of a name are marked, the marks at its ends are taken off, and each
other mark gives way to a capital (`camelChars_eq_dropMarks`).
-/
import ModelSchema.Proofs.Names.Grammar

namespace ModelSchema.Naming

-- ========================================================= runs and gaps

/-- A gap of a name: no letters and no digits, and maybe nothing at all. -/
def IsGap (cs : List Char) : Prop := ∀ c ∈ cs, isNameChar c = false

/-- A run of a name: letters and digits, and at least one. -/
def IsRun (cs : List Char) : Prop := cs ≠ [] ∧ ∀ c ∈ cs, isNameChar c = true

/-- Whether a run that stands before some characters ends there: they do not
go on with a letter or digit. -/
def EndsRun (cs : List Char) : Prop := ∀ c ∈ cs.head?, isNameChar c = false

/-- How a name is spelled: its runs stand in it in order, gaps may stand at
both ends, and a gap that is not empty stands between a run and the next. -/
inductive Spells : List (List Char) → List Char → Prop where
  | gap {cs : List Char} (hgap : IsGap cs) : Spells [] cs
  | run {gap run rest : List Char} {runs : List (List Char)} (hgap : IsGap gap)
      (hrun : IsRun run) (hends : EndsRun rest) (hrest : Spells runs rest) :
      Spells (run :: runs) (gap ++ run ++ rest)

theorem isRun_of_mem_runs (cs : List Char) : ∀ run ∈ runs cs, IsRun run :=
  runsFrom_spec [] cs (List.forall_mem_nil _)

theorem isGap_nil : IsGap [] := fun c hc => by cases hc

theorem endsRun_nil : EndsRun [] := fun c hc => by cases hc

theorem IsRun.exists_cons {cs : List Char} (h : IsRun cs) :
    ∃ c letters, cs = c :: letters ∧ isNameChar c = true ∧ ∀ d ∈ letters, isNameChar d = true := by
  obtain ⟨hsome, hall⟩ := h
  obtain ⟨c, letters, rfl⟩ := List.exists_cons_of_ne_nil hsome
  exact ⟨c, letters, rfl, List.forall_mem_cons.1 hall⟩

/-- A name may start with a run. -/
theorem Spells.startRun {run rest : List Char} {rs : List (List Char)} (hrun : IsRun run)
    (hends : EndsRun rest) (hrest : Spells rs rest) : Spells (run :: rs) (run ++ rest) :=
  .run isGap_nil hrun hends hrest

/-- A name may start with a gap, and with a longer one. -/
theorem Spells.startGap {rs : List (List Char)} {cs : List Char} (h : Spells rs cs) {c : Char}
    (hc : isNameChar c = false) : Spells rs (c :: cs) := by
  cases h with
  | gap hgap => exact .gap (List.forall_mem_cons.2 ⟨hc, hgap⟩)
  | @run gap run rest _ hgap hrun hends hrest =>
      show Spells _ ((c :: gap) ++ run ++ rest)
      exact .run (List.forall_mem_cons.2 ⟨hc, hgap⟩) hrun hends hrest

/-- A gap before the first run is passed over. -/
theorem runsFrom_gap {gap : List Char} (h : IsGap gap) (cs : List Char) :
    runsFrom [] (gap ++ cs) = runsFrom [] cs := by
  induction gap with
  | nil => rfl
  | cons c gap ih =>
      have hc : isNameChar c = false := h c List.mem_cons_self
      rw [List.cons_append, runsFrom, hc, if_neg Bool.false_ne_true, if_pos List.isEmpty_nil]
      exact ih fun d hd => h d (List.mem_cons_of_mem c hd)

/-- Letters and digits go to the run that is open. -/
theorem runsFrom_letters {letters : List Char} (h : ∀ c ∈ letters, isNameChar c = true)
    (opened cs : List Char) :
    runsFrom opened (letters ++ cs) = runsFrom (letters.reverse ++ opened) cs := by
  induction letters generalizing opened with
  | nil => rfl
  | cons c letters ih =>
      rw [List.cons_append, runsFrom, if_pos (h c List.mem_cons_self),
        ih (fun d hd => h d (List.mem_cons_of_mem c hd)), List.reverse_cons, List.append_assoc]
      rfl

/-- What does not go on with a letter or digit ends the run that is open. -/
theorem runsFrom_ends {opened cs : List Char} (hsome : opened ≠ []) (h : EndsRun cs) :
    runsFrom opened cs = opened.reverse :: runsFrom [] cs := by
  have hopened : ¬opened.isEmpty = true := fun hempty => hsome (List.isEmpty_iff.1 hempty)
  cases cs with
  | nil =>
      rw [runsFrom, if_neg hopened]
      rfl
  | cons c cs =>
      have hc : isNameChar c = false := h c rfl
      rw [runsFrom, runsFrom, hc, if_neg Bool.false_ne_true, if_neg Bool.false_ne_true,
        if_neg hopened, if_pos List.isEmpty_nil]

/-- A name has the runs that spell it. -/
theorem Spells.runs_eq {rs : List (List Char)} {cs : List Char} (h : Spells rs cs) :
    runs cs = rs := by
  induction h with
  | @gap cs hgap =>
      have hcs := runsFrom_gap hgap []
      rw [List.append_nil] at hcs
      exact hcs
  | @run gap run rest rs hgap hrun hends _ ih =>
      have hsome : run.reverse ≠ [] := fun hnil => hrun.1 (List.reverse_eq_nil_iff.1 hnil)
      unfold runs at ih ⊢
      rw [List.append_assoc, runsFrom_gap hgap, runsFrom_letters hrun.2, List.append_nil,
        runsFrom_ends hsome hends, List.reverse_reverse, ih]

/-- The runs of a name spell it, with the run that is open before it. -/
theorem spells_runsFrom (opened cs : List Char) (hopened : ∀ c ∈ opened, isNameChar c = true) :
    Spells (runsFrom opened cs) (opened.reverse ++ cs) := by
  have isRun : ∀ {opened : List Char}, ¬opened.isEmpty = true →
      (∀ c ∈ opened, isNameChar c = true) → IsRun opened.reverse := by
    intro opened hsome hopened
    refine ⟨fun hnil => hsome ?_, fun c hc => hopened c (List.mem_reverse.1 hc)⟩
    rw [List.reverse_eq_nil_iff.1 hnil]
    rfl
  induction cs generalizing opened with
  | nil =>
      rw [runsFrom]
      split
      · next hempty =>
          rw [List.isEmpty_iff.1 hempty]
          exact .gap isGap_nil
      · next hsome => exact .startRun (isRun hsome hopened) endsRun_nil (.gap isGap_nil)
  | cons c cs ih =>
      rw [runsFrom]
      split
      · next hname =>
          have hrest := ih (c :: opened) (List.forall_mem_cons.2 ⟨hname, hopened⟩)
          rw [List.reverse_cons, List.append_assoc] at hrest
          exact hrest
      · next hother =>
          have hc : isNameChar c = false := Bool.eq_false_iff.2 hother
          have hrest : Spells (runsFrom [] cs) (c :: cs) :=
            (ih [] (List.forall_mem_nil _)).startGap hc
          split
          · next hempty =>
              rw [List.isEmpty_iff.1 hempty]
              exact hrest
          · next hsome =>
              refine .startRun (isRun hsome hopened) (fun d hd => ?_) hrest
              cases hd
              exact hc

/-- Every name is spelled by its runs, and by no others. -/
theorem spells_iff {rs : List (List Char)} {cs : List Char} : Spells rs cs ↔ runs cs = rs := by
  constructor
  · exact Spells.runs_eq
  · rintro rfl
    exact spells_runsFrom [] cs (List.forall_mem_nil _)

-- ======================================================== the normal form

/-- Names with the same runs have the same camel case. -/
theorem camelCase_congr {s t : String} {rs : List (List Char)} (hs : Spells rs s.toList)
    (ht : Spells rs t.toList) : camelCase s = camelCase t := by
  unfold camelCase camelChars
  rw [hs.runs_eq, ht.runs_eq]

/-- A name without gaps keeps all but its first letter. -/
theorem toList_camelCase {s : String} (h : ∀ c ∈ s.toList, c.isAlphanum = true) :
    (camelCase s).toList = uncapitalize s.toList := by
  unfold camelCase
  rw [String.toList_ofList]
  cases hs : s.toList with
  | nil => rfl
  | cons c rest =>
      rw [hs] at h
      have hspells : Spells [c :: rest] (c :: rest ++ []) :=
        .startRun ⟨List.cons_ne_nil c rest, h⟩ endsRun_nil (.gap isGap_nil)
      rw [List.append_nil] at hspells
      unfold camelChars
      rw [hspells.runs_eq]
      exact List.append_nil _

theorem toLower_of_isSmall {c : Char} (h : isSmall c = true) : c.toLower = c :=
  forall_isAlphanum (P := fun c => isSmall c = true → c.toLower = c) (by decide)
    (isAlphanum_of_isSmall h) h

theorem isUpper_of_isSmall {c : Char} (h : isSmall c = true) : c.isUpper = false :=
  forall_isAlphanum (P := fun c => isSmall c = true → c.isUpper = false) (by decide)
    (isAlphanum_of_isSmall h) h

/-- Camel case is left alone when it is taken again. -/
theorem camelCase_camelCase (s : String) : camelCase (camelCase s) = camelCase s := by
  have hsmall := smallStart_camelCase s
  rw [← String.toList_inj, toList_camelCase (isAlphanum_camelCase s)]
  cases hs : (camelCase s).toList with
  | nil => rfl
  | cons c rest => rw [uncapitalize, toLower_of_isSmall (hsmall c rest hs)]

/-- A capital at the start is all that is lost when camel case is taken of a
name in camel case with one. -/
theorem camelCase_upperCamel (s : String) : camelCase (upperCamel s) = camelCase s := by
  have hsmall := smallStart_camelCase s
  rw [← String.toList_inj, toList_camelCase (isAlphanum_upperCamel s), upperCamel,
    toList_upperFirst hsmall]
  cases hs : (camelCase s).toList with
  | nil => rfl
  | cons c rest =>
      dsimp only
      rw [uncapitalize, toLower_toUpper (hsmall c rest hs)]

/-- Camel case is a normal form of names. It is of letters and digits only
and starts with no capital; taking it again changes nothing, with a capital
at the start or without; the letters and digits of the name are all there,
in order, but for their case; and names that are spelled with the same runs,
whatever stands between them, before them and after them, have the same. -/
theorem camelCase_normalForm (s : String) :
    (∀ c ∈ (camelCase s).toList, c.isAlphanum = true)
      ∧ (∀ c ∈ (camelCase s).toList.head?, c.isUpper = false)
      ∧ camelCase (camelCase s) = camelCase s
      ∧ upperCamel (upperCamel s) = upperCamel s
      ∧ upperCamel (camelCase s) = upperCamel s
      ∧ folded (camelCase s) = folded s
      ∧ folded (upperCamel s) = folded s
      ∧ ∀ (t : String) (rs : List (List Char)), Spells rs s.toList → Spells rs t.toList →
        camelCase s = camelCase t ∧ upperCamel s = upperCamel t := by
  refine ⟨isAlphanum_camelCase s, fun c hc => ?_, camelCase_camelCase s, ?_, ?_, ?_, ?_,
    fun t rs hs ht => ?_⟩
  · obtain ⟨rest, hrest⟩ := List.head?_eq_some_iff.1 hc
    exact isUpper_of_isSmall (smallStart_camelCase s c rest hrest)
  · rw [upperCamel, camelCase_upperCamel, ← upperCamel]
  · rw [upperCamel, camelCase_camelCase, ← upperCamel]
  · rw [folded_of_isAlphanum (isAlphanum_camelCase s), map_toLower_camelCase]
  · rw [folded_of_isAlphanum (isAlphanum_upperCamel s), folded_upperCamel]
  · have hcamel := camelCase_congr hs ht
    exact ⟨hcamel, congrArg upperFirst hcamel⟩

/-- A section of a page, with gaps of several kinds and with marks that are
no ASCII letters. -/
theorem camelCase_normalForm_heroSection :
    Spells ["Hero".toList, "section".toList, "2b".toList] "Hero_section_2b".toList
      ∧ Spells ["Hero".toList, "section".toList, "2b".toList] "-é Hero..section\nß2b!".toList
      ∧ camelCase "Hero_section_2b" = camelCase "-é Hero..section\nß2b!"
      ∧ upperCamel "Hero_section_2b" = upperCamel "-é Hero..section\nß2b!"
      ∧ camelCase "Hero_section_2b" = "heroSection2b" := by
  have hs : Spells ["Hero".toList, "section".toList, "2b".toList] "Hero_section_2b".toList :=
    spells_iff.2 (by decide +kernel)
  have ht : Spells ["Hero".toList, "section".toList, "2b".toList]
      "-é Hero..section\nß2b!".toList := spells_iff.2 (by decide +kernel)
  obtain ⟨_, _, _, _, _, _, _, hspelled⟩ := camelCase_normalForm "Hero_section_2b"
  obtain ⟨hcamel, hupper⟩ := hspelled _ _ hs ht
  exact ⟨hs, ht, hcamel, hupper, by decide +kernel⟩

-- ==================================================== camel case by steps

/-- A name with one mark, an underscore, in place of each of its gaps, given
whether it starts inside a gap that is marked already. -/
def markGapsFrom (marked : Bool) : List Char → List Char
  | [] => []
  | c :: rest =>
      if isNameChar c then c :: markGapsFrom false rest
      else if marked then markGapsFrom true rest
      else '_' :: markGapsFrom true rest

/-- A name with one mark in place of each of its gaps. -/
def markGaps (cs : List Char) : List Char := markGapsFrom false cs

/-- Characters without the marks at their start. -/
def trimStart (cs : List Char) : List Char := cs.dropWhile (· == '_')

/-- Characters without the marks at both ends. -/
def trimMarks (cs : List Char) : List Char := (trimStart (trimStart cs).reverse).reverse

/-- Characters with each mark left out, and what follows it in upper case. -/
def dropMarks : List Char → List Char
  | [] => []
  | [c] => [c]
  | c :: d :: rest =>
      if c = '_' then d.toUpper :: dropMarks rest else c :: dropMarks (d :: rest)

/-- Runs with a mark before each of them. -/
def markedRuns (rs : List (List Char)) : List Char := rs.flatMap ('_' :: ·)

theorem ne_mark_of_isNameChar {c : Char} (h : isNameChar c = true) : c ≠ '_' := by
  rintro rfl
  cases h

/-- What is marked of a gap is one mark, unless there is no gap. -/
theorem markGapsFrom_gap {gap : List Char} (h : IsGap gap) (cs : List Char) :
    markGapsFrom true (gap ++ cs) = markGapsFrom true cs := by
  induction gap with
  | nil => rfl
  | cons c gap ih =>
      have hc : isNameChar c = false := h c List.mem_cons_self
      rw [List.cons_append, markGapsFrom, hc, if_neg Bool.false_ne_true, if_pos rfl]
      exact ih fun d hd => h d (List.mem_cons_of_mem c hd)

theorem markGapsFrom_letters {letters : List Char} (h : ∀ c ∈ letters, isNameChar c = true)
    (cs : List Char) : markGapsFrom false (letters ++ cs) = letters ++ markGaps cs := by
  induction letters with
  | nil => rfl
  | cons c letters ih =>
      rw [List.cons_append, markGapsFrom, if_pos (h c List.mem_cons_self),
        ih fun d hd => h d (List.mem_cons_of_mem c hd)]
      rfl

/-- A run is left as it is, whether there is a mark before it or not. -/
theorem markGapsFrom_run {run : List Char} (h : IsRun run) (marked : Bool) (cs : List Char) :
    markGapsFrom marked (run ++ cs) = run ++ markGaps cs := by
  obtain ⟨c, letters, rfl, hc, hletters⟩ := h.exists_cons
  rw [List.cons_append, markGapsFrom, if_pos hc, markGapsFrom_letters hletters]
  rfl

/-- The mark that a gap gets. -/
def gapMark (gap : List Char) : List Char := if gap.isEmpty then [] else ['_']

theorem eq_mark_of_mem_gapMark {gap : List Char} : ∀ c ∈ gapMark gap, c = '_' := by
  intro c hc
  unfold gapMark at hc
  split at hc
  · cases hc
  · exact List.mem_singleton.1 hc

theorem markGaps_gap {gap : List Char} (h : IsGap gap) : markGaps gap = gapMark gap := by
  cases gap with
  | nil => rfl
  | cons c gap =>
      have hc : isNameChar c = false := h c List.mem_cons_self
      have hrest := markGapsFrom_gap (fun d hd => h d (List.mem_cons_of_mem c hd)) []
      rw [List.append_nil] at hrest
      rw [markGaps, markGapsFrom, hc, if_neg Bool.false_ne_true, if_neg Bool.false_ne_true, hrest]
      rfl

theorem markGaps_gap_run {gap run : List Char} (hgap : IsGap gap) (hrun : IsRun run)
    (cs : List Char) : markGaps (gap ++ run ++ cs) = gapMark gap ++ run ++ markGaps cs := by
  rw [List.append_assoc]
  cases gap with
  | nil => exact markGapsFrom_run hrun false cs
  | cons c gap =>
      have hc : isNameChar c = false := hgap c List.mem_cons_self
      rw [List.cons_append, markGaps, markGapsFrom, hc, if_neg Bool.false_ne_true,
        if_neg Bool.false_ne_true, markGapsFrom_gap fun d hd => hgap d (List.mem_cons_of_mem c hd),
        markGapsFrom_run hrun]
      rfl

/-- After a run, each run that follows has a mark before it, and there may be
one more at the end. -/
theorem Spells.markGaps_rest {rs : List (List Char)} {cs : List Char} (h : Spells rs cs)
    (hends : EndsRun cs) : ∃ last, markGaps cs = markedRuns rs ++ gapMark last := by
  induction h with
  | @gap cs hgap => exact ⟨cs, markGaps_gap hgap⟩
  | @run gap run rest rs hgap hrun hrest _ ih =>
      obtain ⟨last, hlast⟩ := ih hrest
      have hmark : gapMark gap = ['_'] := by
        cases gap with
        | cons c gap => rfl
        | nil =>
            -- without a gap the run before this one would go on
            obtain ⟨c, letters, rfl, hc, _⟩ := hrun.exists_cons
            rw [hends c rfl] at hc
            cases hc
      refine ⟨last, ?_⟩
      rw [markGaps_gap_run hgap hrun, hlast, hmark, ← List.append_assoc]
      rfl

theorem trimStart_append {marks cs : List Char} (hmarks : ∀ c ∈ marks, c = '_')
    (hcs : ∀ c ∈ cs.head?, c ≠ '_') : trimStart (marks ++ cs) = cs := by
  unfold trimStart
  rw [List.dropWhile_append_of_pos fun c hc => beq_iff_eq.2 (hmarks c hc)]
  cases cs with
  | nil => rfl
  | cons c rest => exact List.dropWhile_cons_of_neg fun hc => hcs c rfl (beq_iff_eq.1 hc)

/-- Only the marks at the ends are taken off. -/
theorem trimMarks_append {lead cs last : List Char} (hlead : ∀ c ∈ lead, c = '_')
    (hlast : ∀ c ∈ last, c = '_') (hhead : ∀ c ∈ (cs ++ last).head?, c ≠ '_')
    (hend : ∀ c ∈ cs.getLast?, c ≠ '_') : trimMarks (lead ++ cs ++ last) = cs := by
  unfold trimMarks
  rw [List.append_assoc, trimStart_append hlead hhead, List.reverse_append,
    trimStart_append (fun c hc => hlast c (List.mem_reverse.1 hc)), List.reverse_reverse]
  -- from behind, the last character is the first
  rw [List.head?_reverse]
  exact hend

/-- Runs end in a letter or digit. -/
theorem getLast_markedRuns {run : List Char} {rs : List (List Char)}
    (h : ∀ r ∈ run :: rs, IsRun r) : ∀ c ∈ (run ++ markedRuns rs).getLast?, c ≠ '_' := by
  have ends : ∀ {cs r : List Char}, IsRun r → ∀ c ∈ (cs ++ r).getLast?, c ≠ '_' := by
    intro cs r hr c hc
    rw [List.getLast?_append_of_ne_nil cs hr.1] at hc
    exact ne_mark_of_isNameChar (hr.2 c (List.mem_of_getLast? hc))
  rcases List.eq_nil_or_concat' rs with rfl | ⟨before, last, rfl⟩
  · rw [markedRuns, List.flatMap_nil, List.append_nil, ← List.nil_append run]
    exact ends (h run List.mem_cons_self)
  · have hlast : IsRun last := h last (by simp)
    have hsplit : run ++ markedRuns (before ++ [last])
        = (run ++ markedRuns before ++ ['_']) ++ last := by
      simp [markedRuns]
    rw [hsplit]
    exact ends hlast

/-- The marked gaps of a name, less those at its ends, are the marks between
its runs. -/
theorem Spells.trimMarks_markGaps {run : List Char} {rs : List (List Char)} {cs : List Char}
    (h : Spells (run :: rs) cs) : trimMarks (markGaps cs) = run ++ markedRuns rs := by
  have hruns : ∀ r ∈ run :: rs, IsRun r := by
    rw [← h.runs_eq]
    exact isRun_of_mem_runs cs
  cases h with
  | @run gap _ rest _ hgap hrun hends hrest =>
      obtain ⟨last, hlast⟩ := hrest.markGaps_rest hends
      rw [markGaps_gap_run hgap hrun, hlast, ← List.append_assoc, List.append_assoc (gapMark gap)]
      refine trimMarks_append eq_mark_of_mem_gapMark eq_mark_of_mem_gapMark ?_
        (getLast_markedRuns hruns)
      obtain ⟨c, letters, rfl, hc, _⟩ := hrun.exists_cons
      intro d hd
      cases hd
      exact ne_mark_of_isNameChar hc

theorem dropMarks_letters {letters : List Char} (h : ∀ c ∈ letters, isNameChar c = true)
    (cs : List Char) : dropMarks (letters ++ cs) = letters ++ dropMarks cs := by
  induction letters with
  | nil => rfl
  | cons c letters ih =>
      have hc : c ≠ '_' := ne_mark_of_isNameChar (h c List.mem_cons_self)
      have hrest := ih fun d hd => h d (List.mem_cons_of_mem c hd)
      rw [List.cons_append, List.cons_append, ← hrest]
      cases letters ++ cs with
      | nil => rfl
      | cons d rest => rw [dropMarks, if_neg hc]

/-- A run with a mark before it gets a capital. -/
theorem dropMarks_markedRuns {rs : List (List Char)} (h : ∀ r ∈ rs, IsRun r) :
    dropMarks (markedRuns rs) = rs.flatMap capitalize := by
  induction rs with
  | nil => rfl
  | cons run rs ih =>
      obtain ⟨c, letters, rfl, _, hletters⟩ := (h run List.mem_cons_self).exists_cons
      show dropMarks ('_' :: c :: (letters ++ markedRuns rs)) = _
      rw [dropMarks, if_pos rfl, dropMarks_letters hletters,
        ih fun r hr => h r (List.mem_cons_of_mem _ hr)]
      rfl

/-- Camel case by steps: the gaps of a name are marked, the marks at its ends
are taken off, the first letter turns small, and each mark gives way to a
capital. -/
theorem camelChars_eq_dropMarks (cs : List Char) :
    camelChars cs = match trimMarks (markGaps cs) with
      | [] => []
      | c :: rest => c.toLower :: dropMarks rest := by
  have hspells : Spells (runs cs) cs := spells_iff.2 rfl
  have hall := isRun_of_mem_runs cs
  unfold camelChars
  cases hruns : runs cs with
  | nil =>
      rw [hruns] at hspells
      cases hspells with
      | gap hgap =>
          have htrim : trimMarks (gapMark cs) = [] := by
            cases cs with
            | nil => rfl
            | cons c gap => rfl
          rw [markGaps_gap hgap, htrim]
  | cons run rs =>
      rw [hruns] at hspells hall
      have hrest : ∀ r ∈ rs, IsRun r := fun r hr => hall r (List.mem_cons_of_mem run hr)
      rw [hspells.trimMarks_markGaps]
      obtain ⟨c, letters, rfl, _, hletters⟩ := (hall run List.mem_cons_self).exists_cons
      dsimp only [List.cons_append]
      rw [dropMarks_letters hletters, dropMarks_markedRuns hrest]
      rfl

end ModelSchema.Naming
