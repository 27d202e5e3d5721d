/-
Hidden attributes and the public schema. Two registries that show the same
are compiled to schemas with one union of object types and the same
resolvers, or fail alike, and the texts are the same as well unless an entry
leaks (`build_hides_iff`). An entry does leak if a hidden attribute takes the
name of a field that is shown all the same, as the identifier is: then what
the attribute says of itself is written to the field (`hidden_id_leaks`).
-/
import ModelSchema.Proofs.Hidden.Build
import ModelSchema.Proofs.Hidden.Marks
import ModelSchema.Proofs.Outline.Schema

namespace ModelSchema

-- ==================================================== what can be hidden

/-- A visibility is blind if it does not look at the attributes of
models. -/
def Visibility.Blind (v : Visibility) : Prop :=
  ∀ (m : Model) (attributes : List (String × Attribute)) (name : String),
    v.isEnabled { m with attributes := attributes } name = v.isEnabled m name

theorem Visibility.blind_ofTypeMap (config : List (Key × Value)) :
    (Visibility.ofTypeMap config).Blind := fun _ _ _ => rfl

/-- An attribute that says as many marks of itself. -/
def Attribute.marked (n : Nat) (a : Attribute) : Attribute :=
  { a with
    description := .str (Text.ofMarks n)
    deprecated := .str (Text.ofMarks n) }

/-- A model whose hidden attributes say as many marks of themselves. -/
def Model.marked (v : Visibility) (n : Nat) (m : Model) : Model :=
  { m with
    attributes := m.attributes.map fun e =>
      if m.hides v e then (e.1, e.2.marked n) else e }

/-- A registry whose hidden attributes say as many marks of themselves. -/
def Registry.marked (v : Visibility) (n : Nat) (r : Registry) : Registry :=
  { r with
    models := r.models.map fun e => (e.1, e.2.marked v n)
    components := r.components.map fun e => (e.1, e.2.marked v n) }

section

variable {v : Visibility}

theorem Model.hides_marked (hv : v.Blind) (n : Nat) (m : Model) (e : String × Attribute) :
    (m.marked v n).hides v e = m.hides v e :=
  congrArg (fun enabled => e.2.hidden || !enabled) (hv m _ e.1)

/-- Marks show nothing if the visibility is blind. -/
theorem Model.showsSame_marked (hv : v.Blind) (n : Nat) (m : Model) :
    m.ShowsSame v (m.marked v n) := by
  refine ⟨rfl, ?_⟩
  unfold Model.marked
  rw [List.forall₂_map_right_iff, List.forall₂_same]
  intro e _
  cases hhides : m.hides v e with
  | true => exact Or.inl ⟨hhides, (m.hides_marked hv n (e.1, e.2.marked n)).trans hhides, rfl⟩
  | false => exact Or.inr ⟨hhides, (m.hides_marked hv n e).trans hhides, rfl⟩

theorem Registry.showsSame_marked (hv : v.Blind) (n : Nat) (r : Registry) :
    r.ShowsSame v (r.marked v n) := by
  constructor
  · unfold Registry.marked
    rw [List.forall₂_map_right_iff, List.forall₂_same]
    exact fun e _ => ⟨rfl, e.2.showsSame_marked hv n⟩
  · unfold Registry.marked
    rw [List.forall₂_map_right_iff, List.forall₂_same]
    exact fun e _ => ⟨rfl, e.2.showsSame_marked hv n⟩
  · rfl

/-- A hidden attribute is found marked. -/
theorem Model.attribute?_marked (n : Nat) {m : Model} {name : String} {a : Attribute}
    (h : m.attribute? name = some a) (hhides : m.hides v (name, a) = true) :
    (m.marked v n).attribute? name = some (a.marked n) := by
  obtain ⟨e, he, rfl⟩ := Option.map_eq_some_iff.1 h
  obtain rfl : e.1 = name :=
    eq_of_beq (List.find?_some (p := fun e : String × Attribute => e.1 == name) he)
  unfold Model.attribute? Assoc.get? Model.marked
  have keys : ((fun e' : String × Attribute => e'.1 == e.1)
      ∘ fun e' => if m.hides v e' then (e'.1, e'.2.marked n) else e')
      = fun e' => e'.1 == e.1 := by
    funext e'
    dsimp only [Function.comp]
    split <;> rfl
  rw [List.find?_map, keys, he, Option.map_some, Option.map_some, if_pos hhides]

end

namespace Compiler

variable {c : Compiler}

-- ============================================================ what leaks

theorem isGiven_ofMarks {n : Nat} (hn : 0 < n) : (Value.str (Text.ofMarks n)).isGiven = true := by
  show (Text.ofMarks n != "") = true
  rw [bne_iff_ne]
  intro hempty
  have hmarks := Text.marks_ofMarks n
  rw [hempty] at hmarks
  have : Text.marks "" = 0 := rfl
  omega

/-- What a marked attribute says is said of a field that is open. -/
theorem marks_orElse {d : Sdl.Metadata} (h : d.isOpen = true) {n : Nat} (hn : 0 < n)
    (a : Attribute) (line : String) :
    n ≤ Text.marks (Sdl.applyMetadata line (d.orElse (.ofAttribute (a.marked n)))) := by
  have given := isGiven_ofMarks hn
  have marks : Text.marks (Value.str (Text.ofMarks n)).text = n := Text.marks_ofMarks n
  obtain ⟨description, deprecated⟩ :=
    Sdl.marks_le_applyMetadata line (d.orElse (.ofAttribute (a.marked n)))
  -- what is left to say is the description, or else the deprecation
  cases hdescription : d.description.isGiven with
  | false =>
      have said : (d.orElse (.ofAttribute (a.marked n))).description = .str (Text.ofMarks n) :=
        if_neg (Bool.eq_false_iff.1 hdescription)
      rw [said, marks] at description
      exact description given
  | true =>
      have hdeprecated : d.deprecated.isGiven = false := by
        unfold Sdl.Metadata.isOpen at h
        rw [hdescription] at h
        simpa using h
      have said : (d.orElse (.ofAttribute (a.marked n))).deprecated = .str (Text.ofMarks n) :=
        if_neg (Bool.eq_false_iff.1 hdeprecated)
      rw [said, marks] at deprecated
      exact deprecated given

/-- An entry that leaks writes the marks of its hidden attributes to its
object type. -/
theorem marks_of_leaksFrom (hv : c.visibility.Blind) {m : Model} (h : c.LeaksFrom m) {n : Nat}
    (hn : 0 < n) {r' : Registry} {text : String}
    (htext : (c.given r').typeDefinition (m.marked c.visibility n) = .ok text) :
    n ≤ Text.marks text := by
  obtain ⟨id, hid, key, hkey, a, hget, hhides, hopen⟩ := h
  have shows := m.showsSame_marked hv n
  have hkey' : key ∈ (c.given r').fieldKeys (m.marked c.visibility n) := by
    unfold fieldKeys exposed at hkey ⊢
    rw [given_visibility, shows.exposed]
    exact hkey
  obtain ⟨line, hline⟩ := marks_typeDefinition htext (shows.globalId ▸ hid) hkey'
  refine Nat.le_trans ?_ hline
  unfold Sdl.fieldMetadata
  simp only [Option.bind_some]
  rw [m.attribute?_marked n hget hhides]
  exact marks_orElse hopen hn a line

/-- A registry that leaks has a marked twin with another text. -/
theorem sdl_marked (hv : c.visibility.Blind) (h : c.Leaks) {n : Nat} (hn : 0 < n)
    {p q : Progress} {s : CompiledSchema}
    (hrun : (c.given (c.registry.marked c.visibility n)).build.Yields p s q) :
    n ≤ Text.marks s.sdl := by
  obtain ⟨m, hm, hleak⟩ := h
  have hm' : m.marked c.visibility n ∈ (c.given (c.registry.marked c.visibility n)).entries := by
    rcases List.mem_append.1 hm with hm | hm
    · obtain ⟨e, he, rfl⟩ := List.mem_map.1 hm
      refine List.mem_append_left _ (List.mem_map.2 ⟨_, List.mem_map_of_mem he, rfl⟩)
    · obtain ⟨e, he, rfl⟩ := List.mem_map.1 hm
      refine List.mem_append_right _ (List.mem_map.2 ⟨_, List.mem_map_of_mem he, rfl⟩)
  obtain ⟨text, htext, hmarks⟩ := marks_build hrun hm'
  exact Nat.le_trans (marks_of_leaksFrom hv hleak hn htext) hmarks

/-- Registries that show the same are compiled alike: both builds fail for
one cause, or both succeed with the same members of the union of object
types and the same resolvers, and with the same text if no entry leaks. Where
the visibility does not look at attributes, a compiled text is the same for
all registries that show the same exactly if no entry leaks. -/
theorem build_hides_iff (c : Compiler) :
    (∀ r', c.registry.ShowsSame c.visibility r' →
        c.build.Related (fun s s' => s'.morph = s.morph ∧ s'.resolvers = s.resolvers
            ∧ (¬ c.Leaks → s'.sdl = s.sdl))
          (c.given r').build)
      ∧ (c.visibility.Blind → ∀ p s q, c.build.Yields p s q →
          ((∀ r', c.registry.ShowsSame c.visibility r' →
              ∀ s' q', (c.given r').build.Yields p s' q' → s'.sdl = s.sdl)
            ↔ ¬ c.Leaks)) := by
  constructor
  · intro r' h
    refine (build_related h).imp fun s s' hs => ⟨?_, ?_, fun hclosed => ?_⟩
    · rw [hs.1]
    · rw [hs.1]
    · rw [hs.2 hclosed]
  · intro hv p s q hrun
    constructor
    · intro hall hleak
      -- one mark more than there are in the text
      have shows := c.registry.showsSame_marked hv (Text.marks s.sdl + 1)
      obtain ⟨s', hrun', _⟩ := (build_related shows).yields hrun
      have hmarks := sdl_marked hv hleak (Nat.succ_pos _) hrun'
      rw [hall _ shows s' q hrun'] at hmarks
      exact Nat.not_succ_le_self _ hmarks
    · intro hclosed r' h s' q' hrun'
      obtain ⟨s'', hrun'', hs⟩ := (build_related h).yields hrun
      obtain ⟨rfl, _⟩ := hrun''.unique hrun'
      rw [hs.2 hclosed]

/-- A model whose identifier is hidden and says something of itself. -/
def hiddenIdModel (description : Value) : Model :=
  { name := .str "m", globalId := .str "M"
    attributes :=
      [("id", { type := .str "string", description := description, hidden := true })] }

/-- The registry of that model. -/
def hiddenIdRegistry (description : Value) : Registry :=
  { models := [(.ofName "m", hiddenIdModel description)]
    claims := [(.ofText "M", .str "m")] }

theorem showsSame_hiddenIdRegistry (v : Visibility) (description description' : Value) :
    (hiddenIdRegistry description).ShowsSame v (hiddenIdRegistry description') := by
  refine ⟨List.Forall₂.cons ⟨rfl, rfl, ?_⟩ List.Forall₂.nil, List.Forall₂.nil, rfl⟩
  exact List.Forall₂.cons (Or.inl ⟨rfl, rfl, rfl⟩) List.Forall₂.nil

theorem build_hides_iff_hiddenId :
    (hiddenIdRegistry .null).ShowsSame (ofRegistry (hiddenIdRegistry .null) none {}).visibility
        (hiddenIdRegistry (.str "secret"))
      ∧ (ofRegistry (hiddenIdRegistry .null) none {}).build.Related
        (fun s s' => s'.morph = s.morph ∧ s'.resolvers = s.resolvers
          ∧ (¬ (ofRegistry (hiddenIdRegistry .null) none {}).Leaks → s'.sdl = s.sdl))
        (ofRegistry (hiddenIdRegistry (.str "secret")) none {}).build
      ∧ ∃ s q, (ofRegistry (hiddenIdRegistry .null) none {}).build.Yields {} s q
        ∧ ((∀ r', (hiddenIdRegistry .null).ShowsSame
              (ofRegistry (hiddenIdRegistry .null) none {}).visibility r' →
            ∀ s' q',
              ((ofRegistry (hiddenIdRegistry .null) none {}).given r').build.Yields {} s' q' →
              s'.sdl = s.sdl)
          ↔ ¬ (ofRegistry (hiddenIdRegistry .null) none {}).Leaks) := by
  obtain ⟨hrelated, hiff⟩ := build_hides_iff (ofRegistry (hiddenIdRegistry .null) none {})
  obtain ⟨s, q, h⟩ := Work.exists_yields
    (w := (ofRegistry (hiddenIdRegistry .null) none {}).build) (p := {}) (by decide +kernel)
  have shows := showsSame_hiddenIdRegistry (ofRegistry (hiddenIdRegistry .null) none {}).visibility
    .null (.str "secret")
  exact ⟨shows, hrelated _ shows, s, q, h,
    hiff (Visibility.blind_ofTypeMap _) {} s q h⟩

/-- Both registries show the same and are compiled, but to different
texts. -/
theorem hidden_id_leaks :
    (∀ description, Registry.empty.register (hiddenIdModel description)
        = .ok (hiddenIdRegistry description))
      ∧ (hiddenIdRegistry .null).ShowsSame (ofRegistry (hiddenIdRegistry .null) none {}).visibility
        (hiddenIdRegistry (.str "secret"))
      ∧ ∃ s q s' q', (ofRegistry (hiddenIdRegistry .null) none {}).build.Yields {} s q
        ∧ (ofRegistry (hiddenIdRegistry (.str "secret")) none {}).build.Yields {} s' q'
        ∧ s'.sdl ≠ s.sdl := by
  refine ⟨fun _ => rfl, showsSame_hiddenIdRegistry _ _ _, ?_⟩
  obtain ⟨s, q, h⟩ := Work.exists_yields
    (w := (ofRegistry (hiddenIdRegistry .null) none {}).build) (p := {}) (by decide +kernel)
  obtain ⟨s', q', h'⟩ := Work.exists_yields
    (w := (ofRegistry (hiddenIdRegistry (.str "secret")) none {}).build) (p := {})
    (by decide +kernel)
  refine ⟨s, q, s', q', h, h', fun hsame => ?_⟩
  have texts : (((ofRegistry (hiddenIdRegistry (.str "secret")) none {}).build.run.run
        {}).1.toOption.map CompiledSchema.sdl)
      ≠ (((ofRegistry (hiddenIdRegistry .null) none {}).build.run.run
        {}).1.toOption.map CompiledSchema.sdl) := by decide +kernel
  rw [h, h'] at texts
  exact texts (congrArg some hsame)

end Compiler

end ModelSchema
