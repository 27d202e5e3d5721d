/-
Derived names are names. Letter case, camel case and what is put together
of names keep to the characters of names, so if a global id and a field
may stand in a document, so may the names of the enum types, zones, input
types and payloads that are derived from them. A singular in camel case
is the exception: it may start with a digit, and is asked to be a name.
-/
import ModelSchema.Naming
import ModelSchema.Proofs.Reading.Lexing
import ModelSchema.Sdl.Field
import ModelSchema.TypeRef

namespace ModelSchema

open Graphql (isName isNamePart isNameStart isName_iff forall_isNamePart isNamePart_of_isNameStart)

-- ========================================================= parts of names

/-- A text that may go on a name. -/
def NamePart (s : String) : Prop := ∀ c ∈ s.toList, isNamePart c = true

theorem NamePart.of_isName {s : String} (h : isName s = true) : NamePart s := by
  obtain ⟨c, rest, hs, hstart, hrest⟩ := isName_iff.1 h
  intro d hd
  rw [hs] at hd
  rcases List.mem_cons.1 hd with rfl | hd
  · exact isNamePart_of_isNameStart hstart
  · exact hrest d hd

/-- A name that goes on is a name. -/
theorem isName_append {s t : String} (hs : isName s = true) (ht : NamePart t) :
    isName (s ++ t) = true := by
  obtain ⟨c, rest, hc, hstart, hrest⟩ := isName_iff.1 hs
  refine isName_iff.2 ⟨c, rest ++ t.toList, ?_, hstart, fun d hd => ?_⟩
  · rw [String.toList_append, hc, List.cons_append]
  · rcases List.mem_append.1 hd with hd | hd
    · exact hrest d hd
    · exact ht d hd

/-- A configured name that may stand in a document. -/
def Value.IsName (v : Value) : Prop := ∃ s, v = .str s ∧ isName s = true

theorem Value.IsName.text {v : Value} (h : v.IsName) : isName v.text = true := by
  obtain ⟨s, rfl, hs⟩ := h
  exact hs

theorem Value.isName_str {s : String} : (Value.str s).IsName ↔ isName s = true :=
  ⟨fun h => h.text, fun h => ⟨s, rfl, h⟩⟩

-- ========================================================== names of keys

/-- A name is what a key starts with, whatever is listed after it. -/
theorem Sdl.baseName_append {name list : String} (h : NamePart name)
    (hlist : ∀ c ∈ list.toList.head?, c = '(') : baseName (name ++ list) = name := by
  have plain {c : Char} (hc : c ∈ name.toList) : (c != '(') = true ∧ Text.isBlank c = false :=
    forall_isNamePart
      (P := fun c => isNamePart c = true → (c != '(') = true ∧ Text.isBlank c = false)
      (by decide) (h c hc) (h c hc)
  have kept : ∀ cs : List Char, (∀ c ∈ cs, c ∈ name.toList) → cs.dropWhile Text.isBlank = cs := by
    intro cs hcs
    cases cs with
    | nil => rfl
    | cons c cs =>
        rw [List.dropWhile_cons, (plain (hcs c List.mem_cons_self)).2]
        rfl
  have hnone : list.toList.takeWhile (· != '(') = [] := by
    cases hcs : list.toList with
    | nil => rfl
    | cons c cs =>
        rw [hcs] at hlist
        rw [hlist c rfl]
        rfl
  unfold baseName Text.strip Text.trimBoth
  rw [String.toList_append, List.takeWhile_append_of_pos fun c hc => (plain hc).1, hnone,
    List.append_nil, String.toList_ofList, kept _ fun _ hc => hc,
    kept _ fun _ hc => List.mem_reverse.1 hc, List.reverse_reverse, String.ofList_toList]

/-- A key that may stand in a name is the name it starts with. -/
theorem Sdl.baseName_of_namePart {key : String} (h : NamePart key) : baseName key = key := by
  have hkey : baseName (key ++ "") = key := baseName_append h fun _ hc => (by cases hc)
  rwa [String.append_empty] at hkey

-- ============================================================ letter case

namespace Text

theorem upperChar_of_isNamePart {c : Char} (h : isNamePart c = true) :
    upperChar c = [c.toUpper] ∧ isNamePart c.toUpper = true ∧
      (isNameStart c = true → isNameStart c.toUpper = true) :=
  forall_isNamePart (P := fun c => isNamePart c = true → upperChar c = [c.toUpper]
      ∧ isNamePart c.toUpper = true ∧ (isNameStart c = true → isNameStart c.toUpper = true))
    (by decide) h h

theorem namePart_upper {s : String} (h : NamePart s) : NamePart (upper s) := by
  intro c hc
  unfold upper at hc
  rw [String.toList_ofList] at hc
  obtain ⟨d, hd, hc⟩ := List.mem_flatMap.1 hc
  obtain ⟨hupper, hpart, _⟩ := upperChar_of_isNamePart (h d hd)
  rw [hupper] at hc
  rw [List.mem_singleton.1 hc]
  exact hpart

end Text

namespace Naming

theorem toList_upperFirst_of_namePart {s : String} {c : Char} {rest : List Char}
    (hs : s.toList = c :: rest) (hc : isNamePart c = true) :
    (upperFirst s).toList = c.toUpper :: rest := by
  unfold upperFirst
  rw [hs]
  dsimp only
  rw [String.toList_ofList, (Text.upperChar_of_isNamePart hc).1]
  rfl

/-- A name stays one with a capital. -/
theorem isName_upperFirst {s : String} (h : isName s = true) : isName (upperFirst s) = true := by
  obtain ⟨c, rest, hs, hstart, hrest⟩ := isName_iff.1 h
  have hpart := isNamePart_of_isNameStart hstart
  refine isName_iff.2 ⟨c.toUpper, rest, toList_upperFirst_of_namePart hs hpart, ?_, hrest⟩
  exact (Text.upperChar_of_isNamePart hpart).2.2 hstart

theorem namePart_upperFirst {s : String} (h : NamePart s) : NamePart (upperFirst s) := by
  cases hs : s.toList with
  | nil =>
      unfold upperFirst
      rw [hs]
      exact h
  | cons c rest =>
      have hc : isNamePart c = true := h c (by rw [hs]; exact List.mem_cons_self)
      intro d hd
      rw [toList_upperFirst_of_namePart hs hc] at hd
      rcases List.mem_cons.1 hd with rfl | hd
      · exact (Text.upperChar_of_isNamePart hc).2.1
      · exact h d (by rw [hs]; exact List.mem_cons_of_mem c hd)

-- ============================================================= camel case

theorem isNamePart_of_isAlphanum {c : Char} (h : c.isAlphanum = true) : isNamePart c = true := by
  unfold isNamePart
  rw [h, Bool.true_or]

theorem isAlphanum_capitalize {run : List Char} (h : ∀ c ∈ run, c.isAlphanum = true) :
    ∀ c ∈ capitalize run, c.isAlphanum = true := by
  cases run with
  | nil => exact fun c hc => (by cases hc)
  | cons d letters =>
      have hd := h d List.mem_cons_self
      intro c hc
      rcases List.mem_cons.1 hc with rfl | hc
      · exact forall_isAlphanum (P := fun c => c.isAlphanum = true → c.toUpper.isAlphanum = true)
          (by decide) hd hd
      · exact h c (List.mem_cons_of_mem d hc)

theorem isAlphanum_uncapitalize {run : List Char} (h : ∀ c ∈ run, c.isAlphanum = true) :
    ∀ c ∈ uncapitalize run, c.isAlphanum = true := by
  cases run with
  | nil => exact fun c hc => (by cases hc)
  | cons d letters =>
      intro c hc
      rcases List.mem_cons.1 hc with rfl | hc
      · exact isAlphanum_of_isSmall (isSmall_toLower (h d List.mem_cons_self))
      · exact h c (List.mem_cons_of_mem d hc)

/-- Whatever stands in a text, its camel case is of letters and digits. -/
theorem isAlphanum_camelCase (s : String) : ∀ c ∈ (camelCase s).toList, c.isAlphanum = true := by
  have hruns := runsFrom_spec [] s.toList fun c hc => (by cases hc)
  intro c hc
  unfold camelCase camelChars at hc
  rw [String.toList_ofList] at hc
  change ∀ run ∈ runs s.toList, _ at hruns
  cases hfirst : runs s.toList with
  | nil =>
      rw [hfirst] at hc
      cases hc
  | cons first others =>
      rw [hfirst] at hc hruns
      rcases List.mem_append.1 hc with hc | hc
      · exact isAlphanum_uncapitalize (hruns first List.mem_cons_self).2 c hc
      · obtain ⟨run, hrun, hc⟩ := List.mem_flatMap.1 hc
        exact isAlphanum_capitalize (hruns run (List.mem_cons_of_mem first hrun)).2 c hc

theorem namePart_camelCase (s : String) : NamePart (camelCase s) :=
  fun c hc => isNamePart_of_isAlphanum (isAlphanum_camelCase s c hc)

/-- The input type of a name whose singular is a name is named by one. -/
theorem isName_inputName {singular : String} (h : isName singular = true) :
    isName (upperFirst singular ++ "Input") = true :=
  isName_append (isName_upperFirst h) (NamePart.of_isName rfl)

end Naming

-- ========================================================== derived names

namespace Attribute

variable {modelName : Value} {field : String}

/-- The union of a zone of an entry is named by a name. -/
theorem isName_zoneName (h : modelName.IsName) (field : String) :
    isName (zoneName modelName field) = true := by
  have hcamel : NamePart (Naming.upperCamel field) :=
    Naming.namePart_upperFirst (Naming.namePart_camelCase field)
  exact isName_append (isName_append h.text hcamel) (NamePart.of_isName rfl)

/-- An enum type is named by a name, if it has one of its own. -/
theorem isName_enumTypeName {a : Attribute} (hmodel : modelName.IsName)
    (hfield : isName field = true) (hown : a.enumName.isGiven = true → a.enumName.IsName) :
    ∃ n, a.enumTypeName modelName field = .ok n ∧ n.IsName := by
  unfold enumTypeName
  by_cases hgiven : a.enumName.isGiven = true
  · rw [if_pos hgiven]
    exact ⟨_, rfl, hown hgiven⟩
  · rw [if_neg hgiven]
    obtain ⟨s, rfl, hs⟩ := hmodel
    have hfirst : isName ("ENUM_" ++ Text.upper s) = true :=
      isName_append rfl (Text.namePart_upper (NamePart.of_isName hs))
    have hsecond : isName ("ENUM_" ++ Text.upper s ++ "_") = true :=
      isName_append hfirst (NamePart.of_isName rfl)
    have hname := isName_append hsecond (Text.namePart_upper (NamePart.of_isName hfield))
    exact ⟨_, rfl, Value.isName_str.2 hname⟩

end Attribute

end ModelSchema
