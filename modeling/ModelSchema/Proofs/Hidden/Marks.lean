/-
What is said of a field comes out in the text. The letters `x` of a text,
here called marks, are never lost when it becomes part of another: not by
escaping, quoting or indenting, nor by breaking a body into lines. So a
schema has at least as many marks as any description or deprecation that
went into it (`marks_build`).
-/
import ModelSchema.Proofs.Hidden.Entries

namespace ModelSchema

-- ================================================================ marks

/-- The number of marks in a text. -/
def Text.marks (s : String) : Nat := s.toList.count 'x'

/-- The text of as many marks. -/
def Text.ofMarks (n : Nat) : String := String.ofList (List.replicate n 'x')

namespace Text

theorem marks_ofMarks (n : Nat) : marks (ofMarks n) = n := by
  unfold marks ofMarks
  rw [String.toList_ofList, List.count_replicate_self]

theorem marks_append (s t : String) : marks (s ++ t) = marks s + marks t := by
  unfold marks
  rw [String.toList_append, List.count_append]

/-- The number of marks in texts. -/
def allMarks (parts : List String) : Nat := (parts.flatMap String.toList).count 'x'

theorem allMarks_cons (s : String) (parts : List String) :
    allMarks (s :: parts) = marks s + allMarks parts := by
  unfold allMarks marks
  rw [List.flatMap_cons, List.count_append]

theorem marks_le_allMarks {s : String} {parts : List String} (h : s ∈ parts) :
    marks s ≤ allMarks parts := by
  induction parts with
  | nil => cases h
  | cons t parts ih =>
      rw [allMarks_cons]
      rcases List.mem_cons.1 h with rfl | h
      · omega
      · have := ih h
        omega

/-- A joined text has the marks of all its parts. -/
theorem allMarks_le_intercalate (sep : String) (parts : List String) :
    allMarks parts ≤ marks (sep.intercalate parts) := by
  induction parts with
  | nil => exact Nat.zero_le _
  | cons s parts ih =>
      rw [allMarks_cons]
      cases parts with
      | nil =>
          rw [String.intercalate_singleton]
          exact Nat.le_refl _
      | cons t parts =>
          rw [String.intercalate_cons_cons, marks_append, marks_append]
          omega

/-- A joined text has the marks of each of its parts. -/
theorem marks_le_intercalate (sep : String) {s : String} {parts : List String} (h : s ∈ parts) :
    marks s ≤ marks (sep.intercalate parts) :=
  Nat.le_trans (marks_le_allMarks h) (allMarks_le_intercalate sep parts)

/-- No mark ends a line. -/
theorem count_linesFrom (opened cs : List Char) :
    (linesFrom opened cs).flatten.count 'x' = opened.count 'x' + cs.count 'x' := by
  fun_induction linesFrom opened cs with
  | case1 opened h =>
      rw [List.isEmpty_iff.1 h]
      rfl
  | case2 opened _ => simp
  | case3 opened rest ih =>
      rw [List.flatten_cons, List.count_append, ih, List.count_reverse]
      simp
  | case4 opened c rest _ hend ih =>
      have hc : c ≠ 'x' := fun hc => by
        rw [hc] at hend
        exact absurd hend (by decide)
      rw [List.flatten_cons, List.count_append, ih, List.count_reverse, List.count_cons_of_ne hc]
      simp
  | case5 opened c rest _ _ ih =>
      rw [ih, List.count_cons, List.count_cons]
      omega

/-- The lines of a text have its marks. -/
theorem allMarks_lines (s : String) : allMarks (lines s) = marks s := by
  unfold allMarks lines marks
  have chars : ∀ ls : List (List Char),
      (ls.map String.ofList).flatMap String.toList = ls.flatten := by
    intro ls
    rw [List.flatMap_map, ← List.flatMap_id]
    exact List.flatMap_congr fun cs _ => String.toList_ofList
  rw [chars, count_linesFrom]
  exact Nat.zero_add _

/-- A text between quotes has its marks. -/
theorem marks_le_quoted (s : String) : marks s ≤ marks (quoted s) := by
  have chars : ∀ cs : List Char, cs.count 'x' ≤ (cs.flatMap escapeChar).count 'x' := by
    intro cs
    induction cs with
    | nil => exact Nat.le_refl _
    | cons c cs ih =>
        rw [List.flatMap_cons, List.count_append, List.count_cons]
        by_cases hc : c = 'x'
        · -- the mark stands for itself between quotes
          have one : (escapeChar c).count 'x' = 1 := by rw [hc]; decide
          rw [one, if_pos (beq_iff_eq.2 hc)]
          omega
        · rw [if_neg (mt beq_iff_eq.1 hc)]
          omega
  unfold marks quoted
  rw [String.toList_ofList, List.count_append, List.count_cons]
  have := chars s.toList
  omega

end Text

-- ============================================================= in blocks

namespace Sdl

theorem marks_le_descriptionBlock (text : String) :
    Text.marks text ≤ Text.marks (descriptionBlock text) := by
  have chars : ∀ cs : List Char, (escapeQuotes cs).count 'x' = cs.count 'x' := by
    intro cs
    fun_induction escapeQuotes cs with
    | case1 rest ih => simp [ih]
    | case2 c rest _ ih => rw [List.count_cons, List.count_cons, ih]
    | case3 => rfl
  have escaped : Text.marks (String.ofList (escapeQuotes text.toList)) = Text.marks text := by
    unfold Text.marks
    rw [String.toList_ofList, chars]
  unfold descriptionBlock
  rw [Text.marks_append, Text.marks_append, escaped]
  omega

theorem marks_le_indent (line : String) : Text.marks line ≤ Text.marks (indent line) := by
  unfold indent
  split
  · next hempty => exact Nat.le_of_eq (by rw [hempty])
  · rw [Text.marks_append]
    omega

theorem allMarks_le_indent (lines : List String) :
    Text.allMarks lines ≤ Text.allMarks (lines.map indent) := by
  induction lines with
  | nil => exact Nat.le_refl _
  | cons line lines ih =>
      rw [List.map_cons, Text.allMarks_cons, Text.allMarks_cons]
      have := marks_le_indent line
      omega

/-- A definition has the marks of its body. -/
theorem marks_le_renderBlock (keyword name body description : String) :
    Text.marks body ≤ Text.marks (renderBlock keyword name body description) := by
  have indented : Text.marks body
      ≤ Text.marks (String.intercalate "\n" ((Text.lines body).map indent)) := by
    rw [← Text.allMarks_lines body]
    exact Nat.le_trans (allMarks_le_indent _) (Text.allMarks_le_intercalate "\n" _)
  unfold renderBlock
  simp only [Text.marks_append]
  omega

/-- What is said of a field is written before or after it. -/
theorem marks_le_applyMetadata (line : String) (d : Metadata) :
    (d.description.isGiven = true →
        Text.marks d.description.text ≤ Text.marks (applyMetadata line d))
      ∧ (d.deprecated.isGiven = true →
        Text.marks d.deprecated.text ≤ Text.marks (applyMetadata line d)) := by
  unfold applyMetadata
  simp only [Text.marks_append]
  constructor
  · intro h
    rw [if_pos h]
    have := marks_le_descriptionBlock d.description.text
    omega
  · intro h
    rw [if_pos h]
    simp only [Text.marks_append]
    have := Text.marks_le_quoted d.deprecated.text
    omega

end Sdl

-- ============================================================ in schemas

namespace Compiler

variable {c : Compiler} {m : Model}

/-- The object type of an entry has all that is said of its fields. -/
theorem marks_typeDefinition {text : String} (h : c.typeDefinition m = .ok text) {id : Key}
    (hid : m.globalId.key = .ok id) {key : String} (hkey : key ∈ c.fieldKeys m) :
    ∃ line, Text.marks (Sdl.applyMetadata line
      (Sdl.fieldMetadata (c.contributed.overridesFor id) (some m) key)) ≤ Text.marks text := by
  obtain ⟨fields, hfields, h⟩ := bind_eq_ok.1 h
  obtain ⟨id', hid', h⟩ := bind_eq_ok.1 h
  rw [hid] at hid'
  cases hid'
  cases h
  rw [← keys_objectFields hfields] at hkey
  obtain ⟨⟨key, shape⟩, he, rfl⟩ := List.mem_map.1 hkey
  refine ⟨Sdl.fieldLine key shape, Nat.le_trans ?_ (Sdl.marks_le_renderBlock _ _ _ _)⟩
  exact Text.marks_le_intercalate "\n" (List.mem_map.2 ⟨(key, shape), he, rfl⟩)

/-- The fragment of an entry has its object type. -/
theorem typeDefinition_of_componentFragment {p q : Progress} {f : Fragment}
    (h : (c.componentFragment m).Yields p f q) :
    ∃ text, c.typeDefinition m = .ok text ∧ text ∈ f.definition := by
  obtain ⟨text, _, _, _, _, htext, _, _, _, _, rfl⟩ := componentFragment_inv h
  exact ⟨text, htext, List.mem_append_left _ List.mem_cons_self⟩

theorem typeDefinition_of_modelFragment {p q : Progress} {f : Fragment}
    (h : (c.modelFragment m).Yields p f q) :
    ∃ text, c.typeDefinition m = .ok text ∧ text ∈ f.definition := by
  obtain ⟨_, text, _, _, _, _, _, htext, _, _, _, _, hcase⟩ := modelFragment_inv h
  refine ⟨text, htext, ?_⟩
  rcases hcase with ⟨_, rfl⟩ | ⟨_, _, _, rfl⟩
  · exact List.mem_append_left _ List.mem_cons_self
  · rw [Fragment.merge_definition]
    exact List.mem_append_left _ (List.mem_append_left _ List.mem_cons_self)

/-- A compiled schema has the object types of all entries. -/
theorem marks_build {p q : Progress} {s : CompiledSchema} (h : c.build.Yields p s q)
    (hm : m ∈ c.entries) :
    ∃ text, c.typeDefinition m = .ok text ∧ Text.marks text ≤ Text.marks s.sdl := by
  obtain ⟨_, union, _, _, _, hgenerated, _, _, rfl⟩ := build_inv h
  obtain ⟨components, models, _, hcomponents, hmodels, rfl⟩ := generated_inv hgenerated
  have fragment : ∃ text, c.typeDefinition m = .ok text
      ∧ ∃ f ∈ components ++ models, text ∈ f.definition := by
    rcases List.mem_append.1 hm with hm | hm
    · obtain ⟨_, f, _, hrun, hf⟩ := Work.mem_of_mapM_yields hcomponents hm
      obtain ⟨text, htext, hmem⟩ := typeDefinition_of_componentFragment hrun
      exact ⟨text, htext, f, List.mem_append_left _ hf, hmem⟩
    · obtain ⟨_, f, _, hrun, hf⟩ := Work.mem_of_mapM_yields hmodels hm
      obtain ⟨text, htext, hmem⟩ := typeDefinition_of_modelFragment hrun
      exact ⟨text, htext, f, List.mem_append_right _ hf, hmem⟩
  obtain ⟨text, htext, f, hf, hmem⟩ := fragment
  refine ⟨text, htext, ?_⟩
  have definition : text
      ∈ (Fragment.merge ((components ++ models) ++ [c.contributed])).definition := by
    rw [Fragment.merge_definition]
    exact List.mem_flatMap.2 ⟨f, List.mem_append_left _ hf, hmem⟩
  show Text.marks text ≤ Text.marks (assemble _ union)
  unfold assemble
  rw [Text.marks_append]
  refine Nat.le_trans (Text.marks_le_intercalate "\n\n" ?_) (Nat.le_add_right _ _)
  exact List.mem_append_left _ (List.mem_append_left _ (List.mem_append_left _
    (List.mem_append_right _ definition)))

end Compiler

end ModelSchema
