/-
What the definition of an enum type ought to be, and when it is. The values
that it should have are the declared ones that may be values at all, each
once (`proper`), and what is left out should be told. The definition that
is written has every text that passes for a name, as often as it is
declared; so it is what it ought to be exactly if no text passes twice, and
none passes that is no name (`definition_complete_iff`). What passes for a
name and is none has a line feed at its end.
-/
import ModelSchema.Proofs.Reading.ObjectTypes

namespace ModelSchema

open Graphql (Definition isName)

namespace Enums

-- ============================================================ proper values

/-- Whether a text may be a value of an enum: a GraphQL name other than
`true`, `false` and `null`. -/
def IsValue (s : String) : Prop := isName s = true ∧ s ∉ reserved

instance (s : String) : Decidable (IsValue s) := inferInstanceAs (Decidable (_ ∧ _))

/-- The texts among declared values that may be values of an enum, each
where it comes first. -/
def proper (values : List Value) : List String :=
  ((texts values).filter fun s => IsValue s).eraseDups

/-- Names that are made unique are the same names if they are unique, and
only then. -/
theorem eraseDups_eq_self_iff {names : List String} : names.eraseDups = names ↔ names.Nodup := by
  constructor
  · intro h
    rw [← h]
    exact Morph.nodup_eraseDups names
  · intro h
    rw [← Morph.firstsAfter_nil]
    refine Morph.firstsAfter_eq_self (fun _ _ => rfl) (h.imp fun hne => ?_)
    exact beq_eq_false_iff_ne.2 hne

theorem nodup_proper (values : List Value) : (proper values).Nodup := Morph.nodup_eraseDups _

/-- A name has no line feed at its end. -/
theorem withoutLineFeed_of_isName {s : String} (h : isName s = true) : withoutLineFeed s = s := by
  unfold withoutLineFeed
  refine if_neg fun hlast => ?_
  have hend := Text.OneLine.name h '\n' (List.mem_of_getLast? hlast)
  exact absurd hend (by decide)

/-- What may be a value passes for one; what passes for one may be one if it
is a name. -/
theorem isValue_iff (s : String) : IsValue s ↔ isUsable s = true ∧ isName s = true := by
  unfold IsValue isUsable
  constructor
  · rintro ⟨hname, hword⟩
    refine ⟨?_, hname⟩
    rw [withoutLineFeed_of_isName hname, hname]
    simpa using hword
  · rintro ⟨husable, hname⟩
    refine ⟨hname, ?_⟩
    simpa using ((Bool.and_eq_true _ _).mp husable).2

/-- If all that passes for a value is a name, then what is left out is what
may be no value, and what is used is what may be one. -/
theorem usable_eq_of_names {values : List Value}
    (h : ∀ v ∈ values, isUsable v.text = true → isName v.text = true) :
    skipped values = (values.filter fun v => ¬IsValue v.text)
      ∧ usable values = (texts values).filter fun s => IsValue s := by
  have hsame : ∀ v ∈ values, isUsable v.text = decide (IsValue v.text) := by
    intro v hv
    rw [Bool.eq_iff_iff, decide_eq_true_iff, isValue_iff]
    exact ⟨fun hpass => ⟨hpass, h v hv hpass⟩, And.left⟩
  constructor
  · refine List.filter_congr fun v hv => ?_
    rw [hsame v hv, decide_not]
  · refine List.filter_congr fun s hs => ?_
    obtain ⟨v, hv, rfl⟩ := List.mem_map.1 hs
    exact hsame v hv

-- ============================================================== definitions

/-- The enum type with these values, which is a scalar if there are none. -/
def enumType (name : String) (values : List String) : Graphql.TypeDefinition :=
  ⟨none, name, [], if values = [] then .scalar else .enum (values.map fun v => ⟨none, v, []⟩)⟩

theorem enumType_inj {name : String} {vs ws : List String}
    (h : enumType name vs = enumType name ws) : vs = ws := by
  have hbody := congrArg Graphql.TypeDefinition.body h
  unfold enumType at hbody
  dsimp only at hbody
  split at hbody
  · next hvs =>
      split at hbody
      · next hws => rw [hvs, hws]
      · cases hbody
  · split at hbody
    · cases hbody
    · have hvalue : Function.Injective fun v : String =>
          (⟨none, v, []⟩ : Graphql.EnumValue) := fun _ _ h => (by cases h; rfl)
      exact List.map_injective_iff.2 hvalue (Graphql.TypeBody.enum.inj hbody)

/-- Whether a notice tells of a value that is left out. -/
def isSkip : Notice → Bool
  | .enumValueSkipped .. => true
  | _ => false

/-- What is asked of the definition of an enum type and of what is told of
it: the definition is read as the type of the values that it should have,
and the values that it should not have are told, and no others. -/
structure Complete (name : String) (values : List Value) (definition : String)
    (told : List Notice) : Prop where
  read : Graphql.parse definition = .ok [.type (enumType name (proper values))]
  skipped : told.filter isSkip
    = (values.filter fun v => ¬IsValue v.text).map (.enumValueSkipped (.str name))

variable {name : String} {values : List Value}

/-- The enum type that is written, before it is written. -/
def written (name : String) (values : List Value) : Declaration :=
  declaration (.ofText name, values)

/-- What is written is read as it was declared, unless a value is refused. -/
theorem parse_definition (hname : isName name = true) :
    Graphql.parse (definition (.str name) values)
      = (fun d => [d]) <$> (written name values).read := by
  have htext : definition (.str name) values = Declaration.texts [written name values] :=
    enumDefinition_eq (.ofText name, values)
  have hwell : (written name values).WellNamed := by
    refine ⟨hname, ?_⟩
    unfold written declaration
    by_cases hempty : (usable values).isEmpty = true
    · rw [if_pos hempty]
      trivial
    · rw [if_neg hempty]
      refine ⟨fun hnil => hempty (List.isEmpty_iff.2 hnil), fun v hv => ?_⟩
      exact ((Bool.and_eq_true _ _).mp (List.mem_filter.1 hv).2).1
  rw [htext, Declaration.parse_texts (List.cons_ne_nil _ _) (List.forall_mem_singleton.2 hwell),
    List.mapM_cons]
  cases (written name values).read <;> rfl

/-- The values that are told to be left out are those that are. -/
theorem filter_definitionNotices :
    (definitionNotices (.str name) values).filter isSkip
      = (skipped values).map (.enumValueSkipped (.str name)) := by
  unfold definitionNotices
  have hskips : ((skipped values).map (Notice.enumValueSkipped (.str name))).filter isSkip
      = (skipped values).map (.enumValueSkipped (.str name)) := by
    refine List.filter_eq_self.2 fun n hn => ?_
    obtain ⟨v, _, rfl⟩ := List.mem_map.1 hn
    rfl
  rw [List.filter_append, hskips]
  split <;> exact List.append_nil _

/-- What is written is read with the values that are used, if they are
names. -/
theorem read_written (h : ∀ v ∈ values, isUsable v.text = true → isName v.text = true) :
    (written name values).read = .ok (.type (enumType name (usable values))) := by
  have hvalues : (usable values).mapM Declaration.readValue
      = .ok ((usable values).map fun v => ⟨none, v, []⟩) := by
    rw [mapM_eq_ok, List.forall₂_map_right_iff, List.forall₂_same]
    intro s hs
    rw [(usable_eq_of_names h).2] at hs
    obtain ⟨hname, hword⟩ := of_decide_eq_true (List.mem_filter.1 hs).2
    unfold Declaration.readValue
    rw [withoutLineFeed_of_isName hname]
    simp [hword]
  unfold written declaration Declaration.read enumType
  by_cases hempty : usable values = []
  · rw [if_pos (List.isEmpty_iff.2 hempty), if_pos hempty]
    rfl
  · rw [if_neg fun hnil => hempty (List.isEmpty_iff.1 hnil), if_neg hempty]
    show (fun vs => Definition.type ⟨none, name, [], .enum vs⟩) <$> _ = _
    rw [hvalues]
    rfl

/-- The definition of an enum type is what it ought to be exactly if no text
passes for a value twice and only names pass. -/
theorem definition_complete_iff (hname : isName name = true) :
    Complete name values (definition (.str name) values) (definitionNotices (.str name) values)
      ↔ (usable values).Nodup
        ∧ ∀ v ∈ values, isUsable v.text = true → isName v.text = true := by
  have hinjective : Function.Injective (Notice.enumValueSkipped (.str name)) :=
    fun _ _ h => (by cases h; rfl)
  constructor
  · rintro ⟨hread, hskipped⟩
    rw [filter_definitionNotices] at hskipped
    have hleft := List.map_injective_iff.2 hinjective hskipped
    have hnames : ∀ v ∈ values, isUsable v.text = true → isName v.text = true := by
      intro v hv hpass
      by_contra hno
      have hmem : v ∈ skipped values := by
        rw [hleft]
        exact List.mem_filter.2 ⟨hv, decide_eq_true fun hvalue => hno hvalue.1⟩
      simp [skipped, hpass] at hmem
    refine ⟨?_, hnames⟩
    rw [parse_definition hname, read_written hnames] at hread
    have htype := Definition.type.inj (List.cons.inj (Except.ok.inj hread)).1
    rw [enumType_inj htype]
    exact nodup_proper values
  · rintro ⟨hnodup, hnames⟩
    obtain ⟨hleft, husable⟩ := usable_eq_of_names hnames
    have hproper : proper values = usable values := by
      unfold proper
      rw [← husable]
      exact eraseDups_eq_self_iff.2 hnodup
    refine ⟨?_, ?_⟩
    · rw [parse_definition hname, read_written hnames, hproper]
      rfl
    · rw [filter_definitionNotices, hleft]

/-- Where an enum type is first declared its definition is written, and what
there is to tell of it is told. -/
theorem declareEnum_yields_first {p : Progress}
    (hfirst : Assoc.has p.declared (.ofText name) = false) :
    (Compiler.declareEnum (.str name) values).Yields p (some (definition (.str name) values))
      { declared := Assoc.put (.ofText name) (texts values) p.declared
        notices := p.notices ++ definitionNotices (.str name) values } := by
  have hdeclare : declare p.declared (.ofText name) values
      = { declared := Assoc.put (.ofText name) (texts values) p.declared
          definition := some (definition (.str name) values)
          notices := definitionNotices (.str name) values } := by
    unfold declare
    rw [(Assoc.get?_eq_none_iff _ _).2 hfirst]
    rfl
  have hrun : (Compiler.declareEnum (.str name) values).run.run p
      = (.ok (declare p.declared (.ofText name) values).definition,
        { declared := (declare p.declared (.ofText name) values).declared
          notices := p.notices ++ (declare p.declared (.ofText name) values).notices }) := rfl
  show (Compiler.declareEnum (.str name) values).run.run p = _
  rw [hrun, hdeclare]

/-- The first definition of an enum type is what it ought to be, and so is
what is told of it, exactly if no text passes for a value twice and only
names pass. -/
theorem declareEnum_complete_iff (name : String) (values : List Value) (p : Progress)
    (hname : isName name = true) (hfirst : Assoc.has p.declared (.ofText name) = false) :
    ∃ definition told q, (Compiler.declareEnum (.str name) values).Yields p (some definition) q
      ∧ q.notices = p.notices ++ told
      ∧ (Complete name values definition told
        ↔ (usable values).Nodup
          ∧ ∀ v ∈ values, isUsable v.text = true → isName v.text = true) :=
  ⟨_, _, _, declareEnum_yields_first hfirst, rfl, definition_complete_iff hname⟩

/-- States of an article, one of which is no name. -/
theorem declareEnum_complete_iff_states :
    isName "ENUM_M_E" = true ∧ Assoc.has ({} : Progress).declared (.ofText "ENUM_M_E") = false
      ∧ ∃ definition told q,
        (Compiler.declareEnum (.str "ENUM_M_E") [.str "draft", .str "in review"]).Yields {}
          (some definition) q
        ∧ Complete "ENUM_M_E" [.str "draft", .str "in review"] definition told := by
  have hname : isName "ENUM_M_E" = true := by decide
  have hfirst : Assoc.has ({} : Progress).declared (.ofText "ENUM_M_E") = false := rfl
  obtain ⟨definition, told, q, hrun, _, hcomplete⟩ :=
    declareEnum_complete_iff "ENUM_M_E" [.str "draft", .str "in review"] {} hname hfirst
  exact ⟨hname, hfirst, definition, told, q, hrun, hcomplete.2 (by decide +kernel)⟩

/-- A value that is declared twice is written twice, and a word with a line
feed at its end is written as if it were a name, and nothing is told of
either. -/
theorem value_repeated :
    ∃ q, (Compiler.declareEnum (.str "ENUM_M_E") [.str "a", .str "a", .str "b\n"]).Yields {}
          (some "enum ENUM_M_E \x7b\n  a\n  a\n  b\n\x7d") q
      ∧ q.notices = []
      ∧ ¬Complete "ENUM_M_E" [.str "a", .str "a", .str "b\n"]
          "enum ENUM_M_E \x7b\n  a\n  a\n  b\n\x7d" [] := by
  have hname : isName "ENUM_M_E" = true := by decide
  have hfirst : Assoc.has ({} : Progress).declared (.ofText "ENUM_M_E") = false := rfl
  have htext : definition (.str "ENUM_M_E") [.str "a", .str "a", .str "b\n"]
      = "enum ENUM_M_E \x7b\n  a\n  a\n  b\n\x7d" := by decide +kernel
  rw [← htext]
  refine ⟨_, declareEnum_yields_first hfirst, rfl, fun h => ?_⟩
  exact absurd ((definition_complete_iff hname).1 h).1 (by decide +kernel)

end Enums

end ModelSchema
