/-
What binding resolvers does to a schema, and what it leaves alone. An
executable schema has a place for each field and for the rule of each
abstract type (`Place`), and a resolver map fills a place exactly if it
has a callable for it and the schema has the place (`Binds`). One entry
changes its own place at most (`held?_bindField`); as a map repeats no
key, no place is filled twice, so that what a place holds in the end does
not depend on the order of the map (`bindAll_exact`). What is told does,
and is told section by section (`notices_bindAll`).
-/
import Mathlib.Data.List.Forall2
import Mathlib.Logic.Basic
import ModelSchema.Executable
import ModelSchema.Proofs.Merge.Sections
import ModelSchema.Proofs.Run

namespace ModelSchema

open Graphql (TypeKind)

-- ================================================================ schemas

namespace Graphql

/-- The standard types with fields are object types, and none of them is a
scalar. -/
theorem Standard.forall_introspection :
    ∀ e ∈ introspection, (e.2.2 ≠ [] → e.2.1 = .object) ∧ scalars.contains e.1 = false := by
  decide

/-- Only object types and interfaces have fields to be resolved by. -/
theorem Schema.kind_of_mem_fieldNames {s : Schema} {type field : String} {kind : TypeKind}
    (hkind : s.kind? type = some kind) (hfield : field ∈ s.fieldNames type) :
    kind = .object ∨ kind = .interface := by
  unfold kind? at hkind
  unfold fieldNames at hfield
  cases htype : s.type? type with
  | some t =>
      rw [htype] at hkind hfield
      cases hkind
      cases hbody : t.body with
      | object => exact Or.inl rfl
      | interface => exact Or.inr rfl
      | scalar | union | enum | input => simp [hbody, SchemaBody.resolvable] at hfield
  | none =>
      rw [htype] at hkind hfield
      cases hlookup : Standard.introspection.lookup type with
      | none => simp [hlookup] at hfield
      | some found =>
          obtain ⟨before, after, hsplit, _⟩ := List.lookup_eq_some_iff.1 hlookup
          have hmem : (type, found) ∈ Standard.introspection := by
            rw [hsplit]
            exact List.mem_append_right before List.mem_cons_self
          obtain ⟨hobject, hscalar⟩ := Standard.forall_introspection _ hmem
          have hsome : found.2 ≠ [] := by
            rintro hnil
            simp [hlookup, hnil] at hfield
          simp only [hscalar, Standard.kind?, hlookup, Bool.false_and] at hkind
          cases hkind
          exact Or.inl (hobject hsome)

/-- Whether a type of a schema is an object type or an interface that has a
field. -/
def Schema.HasField (s : Schema) (type field : String) : Prop :=
  (s.kind? type = some .object ∨ s.kind? type = some .interface) ∧ field ∈ s.fieldNames type

instance (s : Schema) (type field : String) : Decidable (s.HasField type field) :=
  inferInstanceAs (Decidable (_ ∧ _))

theorem Schema.hasField_iff {s : Schema} {type field : String} {kind : TypeKind}
    (hkind : s.kind? type = some kind) : s.HasField type field ↔ field ∈ s.fieldNames type := by
  refine ⟨And.right, fun hfield => ⟨?_, hfield⟩⟩
  rw [hkind]
  exact (kind_of_mem_fieldNames hkind hfield).imp (congrArg some) (congrArg some)

end Graphql

namespace Executable

-- ================================================================ entries

/-- Whether a content gives a callable: it is one, or it is a map whose
first callable among `resolve` and `resolver` that is. -/
inductive Gives : Content → Content → Prop where
  | itself {c : Content} (h : c.isCallable = true) : Gives c c
  | resolve {entries : List (String × Value)} {f : String}
      (h : Assoc.get? entries "resolve" = some (.callable f)) :
      Gives (.given (.map entries)) (.given (.callable f))
  | resolver {entries : List (String × Value)} {f : String}
      (hfirst : ∀ g, Assoc.get? entries "resolve" ≠ some (.callable g))
      (h : Assoc.get? entries "resolver" = some (.callable f)) :
      Gives (.given (.map entries)) (.given (.callable f))

/-- The callable that a map has under a key. -/
def callableAt (entries : List (String × Value)) (key : String) : Option Content :=
  match Assoc.get? entries key with
  | some (.callable f) => some (.given (.callable f))
  | _ => none

theorem callableAt_eq_some_iff {entries : List (String × Value)} {key : String} {r : Content} :
    callableAt entries key = some r
      ↔ ∃ f, Assoc.get? entries key = some (.callable f) ∧ r = .given (.callable f) := by
  unfold callableAt
  split
  · next f hf =>
      rw [hf, Option.some.injEq]
      constructor
      · rintro rfl
        exact ⟨f, rfl, rfl⟩
      · rintro ⟨g, hg, rfl⟩
        cases hg
        rfl
  · next hnone =>
      refine ⟨fun h => (by cases h), ?_⟩
      rintro ⟨f, hf, _⟩
      exact absurd hf (hnone f)

theorem callable?_map (entries : List (String × Value)) :
    callable? (.given (.map entries))
      = (callableAt entries "resolve").or (callableAt entries "resolver") := by
  have found (key : String) (rest : List Content) :
      (Content.given (Value.getD entries key) :: rest).find? Content.isCallable
        = (callableAt entries key).or (rest.find? Content.isCallable) := by
    unfold Value.getD callableAt
    cases Assoc.get? entries key with
    | none => rfl
    | some v => cases v <;> rfl
  show ([_, _].find? _) = _
  rw [found, found, List.find?_nil, Option.or_none]

/-- What is called for an entry is what it gives. -/
theorem callable?_eq_some_iff (c r : Content) : callable? c = some r ↔ Gives c r := by
  have itself (h : ∀ entries, c ≠ .given (.map entries)) :
      callable? c = some r ↔ Gives c r := by
    have hcallable : callable? c = if c.isCallable then some c else none := by
      unfold callable?
      split
      · next entries => exact absurd rfl (h entries)
      · rfl
    rw [hcallable]
    constructor
    · intro hc
      split at hc
      · next hc' =>
          cases hc
          exact Gives.itself hc'
      · cases hc
    · intro hc
      cases hc with
      | itself hc => exact if_pos hc
      | resolve => exact absurd rfl (h _)
      | resolver => exact absurd rfl (h _)
  by_cases hmap : ∃ entries, c = .given (.map entries)
  · obtain ⟨entries, rfl⟩ := hmap
    rw [callable?_map, Option.or_eq_some_iff, callableAt_eq_some_iff, callableAt_eq_some_iff]
    constructor
    · rintro (⟨f, hf, rfl⟩ | ⟨hnone, f, hf, rfl⟩)
      · exact Gives.resolve hf
      · refine Gives.resolver (fun g hg => ?_) hf
        cases hnone.symm.trans (callableAt_eq_some_iff.2 ⟨g, hg, rfl⟩)
    · intro h
      cases h with
      | itself h => cases h
      | resolve hf => exact Or.inl ⟨_, hf, rfl⟩
      | resolver hfirst hf =>
          refine Or.inr ⟨?_, _, hf, rfl⟩
          rw [Option.eq_none_iff_forall_ne_some]
          intro r hr
          obtain ⟨g, hg, _⟩ := callableAt_eq_some_iff.1 hr
          exact hfirst g hg
  · exact itself fun entries h => hmap ⟨entries, h⟩

-- ================================================================= places

/-- What a callable can be bound to: a field of a type, or an abstract type
itself, whose rule it becomes. -/
inductive Place where
  | field (type name : String)
  | rule (type : String)
deriving DecidableEq

namespace Place

def type : Place → String
  | .field type _ => type
  | .rule type => type

/-- The name under which a resolver map has the entry for a place. -/
def entryName : Place → String
  | .field _ name => name
  | .rule _ => ruleEntry

/-- Whether a schema has a place. A field by the name of the rule's entry
has none. -/
def In (p : Place) (schema : Graphql.Schema) : Prop :=
  match p with
  | .field type name => name ≠ ruleEntry ∧ schema.HasField type name
  | .rule type => schema.kind? type = some .union ∨ schema.kind? type = some .interface

instance : (p : Place) → (schema : Graphql.Schema) → Decidable (p.In schema)
  | .field type name, schema =>
      inferInstanceAs (Decidable (name ≠ ruleEntry ∧ schema.HasField type name))
  | .rule type, schema =>
      inferInstanceAs
        (Decidable (schema.kind? type = some .union ∨ schema.kind? type = some .interface))

/-- The place that an entry of a type is for. -/
def ofEntry (type field : String) : Place :=
  if field = ruleEntry then .rule type else .field type field

/-- The entry for a place is known by its type and name. -/
theorem ofEntry_eq_iff {p : Place} {schema : Graphql.Schema} (h : p.In schema)
    (type field : String) : ofEntry type field = p ↔ p.type = type ∧ p.entryName = field := by
  unfold ofEntry
  cases p with
  | field type' name =>
      have hname : name ≠ ruleEntry := h.1
      by_cases hrule : field = ruleEntry
      · simp [hrule, Place.type, entryName, hname]
      · simp [hrule, Place.type, entryName, eq_comm]
  | rule type' =>
      by_cases hrule : field = ruleEntry
      · simp [hrule, Place.type, entryName, eq_comm]
      · simp [hrule, Place.type, entryName, Ne.symm hrule]

end Place

/-- What stands at a place. -/
def held? (x : Executable) : Place → Option Content
  | .field type name => x.resolver? type name
  | .rule type => x.typeRule? type

/-- Whether a resolver map binds a callable to a place of a schema: the
schema has the place, and under its type and name the map has an entry that
gives the callable. -/
structure Binds (schema : Graphql.Schema) (m : SectionMap) (p : Place) (r : Content) : Prop where
  place : p.In schema
  entry : ∃ e, Assoc.get? (m.fieldsOf (.ofText p.type)) p.entryName = some e ∧ Gives e.content r

/-- What the entries of a type bind to a place. -/
def boundTo (schema : Graphql.Schema) (fields : List (String × Entry)) (p : Place) :
    Option Content :=
  if p.In schema then (Assoc.get? fields p.entryName).bind fun e => callable? e.content else none

theorem boundTo_eq_some_iff {schema : Graphql.Schema} {m : SectionMap} {p : Place} {r : Content} :
    boundTo schema (m.fieldsOf (.ofText p.type)) p = some r ↔ Binds schema m p r := by
  unfold boundTo
  constructor
  · intro h
    split at h
    · next hplace =>
        obtain ⟨e, he, hr⟩ := Option.bind_eq_some_iff.1 h
        exact ⟨hplace, e, he, (callable?_eq_some_iff _ _).1 hr⟩
    · cases h
  · rintro ⟨hplace, e, he, hr⟩
    rw [if_pos hplace, he]
    exact (callable?_eq_some_iff _ _).2 hr

-- ============================================================== one entry

variable {x : Executable} {type : String} {kind : TypeKind}

@[simp] theorem schema_bindField (e : String × Entry) :
    (x.bindField type kind e).schema = x.schema := by
  unfold bindField bindEntry
  split
  · split
    · split <;> rfl
    · split <;> rfl
  · rfl

/-- A callable is put at its own place, and all others stay as they are. -/
theorem held?_bindEntry_of_in (hkind : x.schema.kind? type = some kind) {field : String}
    (h : (Place.ofEntry type field).In x.schema) (c : Content) (p : Place) :
    (x.bindEntry type kind field c).held? p
      = if Place.ofEntry type field = p then some c else x.held? p := by
  unfold Place.ofEntry at h ⊢
  unfold bindEntry
  by_cases hrule : field = ruleEntry
  · rw [if_pos hrule] at h ⊢
    have habstract : (kind = .union || kind = .interface) = true := by
      change x.schema.kind? type = some .union ∨ x.schema.kind? type = some .interface at h
      rw [hkind] at h
      simpa using h
    rw [if_pos hrule, if_pos habstract]
    cases p with
    | field => rfl
    | rule type' =>
        show Assoc.get? (Assoc.put type c x.typeRules) type' = _
        rw [Assoc.get?_put]
        simp [held?, typeRule?]
  · rw [if_neg hrule] at h ⊢
    have hfield : (x.schema.fieldNames type).contains field = true := by
      simpa using h.2.2
    rw [if_neg hrule, if_pos hfield]
    cases p with
    | field type' name =>
        show Assoc.get? (Assoc.put (type, field) c x.resolvers) (type', name) = _
        rw [Assoc.get?_put]
        simp [held?, resolver?]
    | rule => rfl

/-- Where the schema does not have its place, a callable leaves all others
as they are. -/
theorem held?_bindEntry_of_not_in (hkind : x.schema.kind? type = some kind) {field : String}
    (h : ¬(Place.ofEntry type field).In x.schema) (c : Content) (p : Place) :
    (x.bindEntry type kind field c).held? p = x.held? p := by
  unfold Place.ofEntry at h
  unfold bindEntry
  by_cases hrule : field = ruleEntry
  · rw [if_pos hrule] at h
    have habstract : ¬(kind = .union || kind = .interface) = true := by
      intro hkinds
      refine h ?_
      show x.schema.kind? type = some .union ∨ x.schema.kind? type = some .interface
      rw [hkind]
      simpa using hkinds
    rw [if_pos hrule, if_neg habstract]
  · rw [if_neg hrule] at h
    have hfield : ¬(x.schema.fieldNames type).contains field = true := fun hmem =>
      h ⟨hrule, (Graphql.Schema.hasField_iff hkind).2 (by simpa using hmem)⟩
    rw [if_neg hrule, if_neg hfield]
    cases p <;> rfl

/-- What an entry gives is found at its own place, if the schema has that,
and nowhere else. -/
theorem held?_bindField (hkind : x.schema.kind? type = some kind) (e : String × Entry)
    (p : Place) :
    (x.bindField type kind e).held? p
      = (if p.type = type ∧ p.entryName = e.1 ∧ p.In x.schema then callable? e.2.content
          else none).or (x.held? p) := by
  unfold bindField
  cases callable? e.2.content with
  | none => rw [ite_self, Option.none_or]
  | some c =>
      by_cases hplace : (Place.ofEntry type e.1).In x.schema
      · have hown : p.type = type ∧ p.entryName = e.1 ∧ p.In x.schema
            ↔ Place.ofEntry type e.1 = p := by
          constructor
          · rintro ⟨htype, hname, hp⟩
            exact (Place.ofEntry_eq_iff hp _ _).2 ⟨htype, hname⟩
          · rintro rfl
            obtain ⟨htype, hname⟩ := (Place.ofEntry_eq_iff hplace _ _).1 rfl
            exact ⟨htype, hname, hplace⟩
        show (x.bindEntry type kind e.1 c).held? p = _
        rw [held?_bindEntry_of_in hkind hplace]
        by_cases hp : Place.ofEntry type e.1 = p
        · rw [if_pos hp, if_pos (hown.2 hp), Option.some_or]
        · rw [if_neg hp, if_neg (mt hown.1 hp), Option.none_or]
      · have hother : ¬(p.type = type ∧ p.entryName = e.1 ∧ p.In x.schema) := by
          rintro ⟨htype, hname, hp⟩
          refine hplace ?_
          rwa [(Place.ofEntry_eq_iff hp _ _).2 ⟨htype, hname⟩]
        show (x.bindEntry type kind e.1 c).held? p = _
        rw [held?_bindEntry_of_not_in hkind hplace, if_neg hother, Option.none_or]

-- ============================================================ one section

theorem boundTo_nil (schema : Graphql.Schema) (p : Place) : boundTo schema [] p = none := by
  unfold boundTo
  exact ite_self _

/-- Of entries that repeat no name only one is for a place. -/
theorem boundTo_cons {schema : Graphql.Schema} {e : String × Entry}
    {fields : List (String × Entry)} (h : Assoc.Distinct (e :: fields)) (p : Place) :
    boundTo schema (e :: fields) p
      = (boundTo schema fields p).or
          (if p.entryName = e.1 ∧ p.In schema then callable? e.2.content else none) := by
  unfold boundTo
  by_cases hplace : p.In schema
  · rw [if_pos hplace, if_pos hplace, Assoc.get?_cons]
    by_cases hname : p.entryName = e.1
    · have hsame : (e.1 == p.entryName) = true := beq_iff_eq.2 hname.symm
      rw [if_pos hsame, if_pos ⟨hname, hplace⟩, Assoc.get?_tail_eq_none h hsame]
      rfl
    · have hother : ¬(e.1 == p.entryName) = true := fun hsame => hname (beq_iff_eq.1 hsame).symm
      rw [if_neg hother, if_neg fun h => hname h.1, Option.or_none]
  · rw [if_neg hplace, if_neg hplace, if_neg fun h => hplace h.2]
    rfl

theorem schema_foldl_bindField (fields : List (String × Entry)) :
    (fields.foldl (fun x e => x.bindField type kind e) x).schema = x.schema := by
  induction fields generalizing x with
  | nil => rfl
  | cons e fields ih => rw [List.foldl_cons, ih, schema_bindField]

/-- Entries that repeat no name are each found at their own places. -/
theorem held?_foldl_bindField (hkind : x.schema.kind? type = some kind)
    {fields : List (String × Entry)} (h : Assoc.Distinct fields) (p : Place) :
    (fields.foldl (fun x e => x.bindField type kind e) x).held? p
      = (if p.type = type then boundTo x.schema fields p else none).or (x.held? p) := by
  induction fields generalizing x with
  | nil =>
      rw [boundTo_nil, ite_self]
      rfl
  | cons e fields ih =>
      have hkind' : (x.bindField type kind e).schema.kind? type = some kind := by
        rwa [schema_bindField]
      rw [List.foldl_cons, ih hkind' (Assoc.distinct_cons_iff.1 h).2, schema_bindField,
        held?_bindField hkind, boundTo_cons h]
      by_cases htype : p.type = type
      · simp only [htype, true_and, if_true, Option.or_assoc]
      · simp only [htype, false_and, if_false, Option.none_or]

theorem typeOf?_eq_some_iff {schema : Graphql.Schema} {key : Key} :
    typeOf? schema key = some (type, kind)
      ↔ key.value = .str type ∧ schema.kind? type = some kind := by
  unfold typeOf?
  split
  · next name hname =>
      rw [hname, Option.map_eq_some_iff]
      constructor
      · rintro ⟨kind', hkind, hpair⟩
        cases hpair
        exact ⟨rfl, hkind⟩
      · rintro ⟨htype, hkind⟩
        cases htype
        exact ⟨kind, hkind, rfl⟩
  · next hother =>
      refine ⟨fun h => (by cases h), fun h => absurd h.1 (hother type)⟩

/-- The type of a place is in the schema. -/
theorem Place.In.exists_kind {schema : Graphql.Schema} {p : Place} (h : p.In schema) :
    ∃ kind, schema.kind? p.type = some kind := by
  cases p with
  | field type name =>
      rcases h.2.1 with hkind | hkind
      · exact ⟨_, hkind⟩
      · exact ⟨_, hkind⟩
  | rule type =>
      rcases h with hkind | hkind
      · exact ⟨_, hkind⟩
      · exact ⟨_, hkind⟩

theorem schema_bindSection (x : Executable) (key : Key) (s : Section) :
    (x.bindSection key s).schema = x.schema := by
  cases s with
  | plain => rfl
  | entries fields =>
      unfold bindSection
      dsimp only
      split
      · rfl
      · exact schema_foldl_bindField fields

/-- A section binds to the places of its own type. -/
theorem held?_bindSection (x : Executable) (key : Key) {s : Section}
    (h : Assoc.Distinct s.fields) (p : Place) :
    (x.bindSection key s).held? p
      = (if key == .ofText p.type then boundTo x.schema s.fields p else none).or (x.held? p) := by
  cases s with
  | plain v =>
      show x.held? p = (if _ then boundTo x.schema [] p else none).or _
      rw [boundTo_nil, ite_self, Option.none_or]
  | entries fields =>
      have hdistinct : Assoc.Distinct fields := h
      show _ = (if key == .ofText p.type then boundTo x.schema fields p else none).or (x.held? p)
      unfold bindSection
      dsimp only
      split
      · next hunknown =>
          -- a type that the schema does not have has no places
          have hnone : (if key == .ofText p.type then boundTo x.schema fields p else none)
              = none := by
            split
            · next hkey =>
                refine if_neg fun hplace => ?_
                obtain ⟨kind, hkind⟩ := hplace.exists_kind
                rw [typeOf?_eq_some_iff.2 ⟨(Key.beq_ofText_iff _ _).1 hkey, hkind⟩] at hunknown
                cases hunknown
            · rfl
          rw [hnone, Option.none_or]
          cases p <;> rfl
      · next type kind hfound =>
          obtain ⟨hkey, hkind⟩ := typeOf?_eq_some_iff.1 hfound
          rw [held?_foldl_bindField hkind hdistinct]
          refine congrArg (Option.or · _) (if_congr ?_ rfl rfl)
          rw [Key.beq_ofText_iff, hkey, Value.str.injEq, eq_comm]

-- ============================================================== whole maps

theorem schema_bindAll (x : Executable) (m : SectionMap) : (x.bindAll m).schema = x.schema := by
  induction m generalizing x with
  | nil => rfl
  | cons e m ih => exact (ih _).trans (schema_bindSection x e.1 e.2)

/-- A resolver map that repeats no key binds what it has for a place, and
leaves the place as it is if it has nothing for it. -/
theorem held?_bindAll (x : Executable) {m : SectionMap} (h : m.WellFormed) (p : Place) :
    (x.bindAll m).held? p
      = (boundTo x.schema (m.fieldsOf (.ofText p.type)) p).or (x.held? p) := by
  induction m generalizing x with
  | nil =>
      show x.held? p = (boundTo x.schema [] p).or _
      rw [boundTo_nil, Option.none_or]
  | cons e m ih =>
      obtain ⟨key, s⟩ := e
      have hrest : SectionMap.WellFormed m :=
        ⟨(Assoc.distinct_cons_iff.1 h.types).2, fun e he => h.fields e (List.mem_cons_of_mem _ he)⟩
      have hfields : SectionMap.fieldsOf ((key, s) :: m) (.ofText p.type)
          = if key == .ofText p.type then s.fields else SectionMap.fieldsOf m (.ofText p.type) := by
        unfold SectionMap.fieldsOf
        rw [Assoc.get?_cons]
        split <;> rfl
      show (Executable.bindAll (x.bindSection key s) m).held? p = _
      rw [ih (x.bindSection key s) hrest, schema_bindSection,
        held?_bindSection x key (h.fields (key, s) List.mem_cons_self), hfields]
      by_cases hkey : (key == .ofText p.type) = true
      · have hnone : SectionMap.fieldsOf m (.ofText p.type) = [] := by
          unfold SectionMap.fieldsOf
          rw [Assoc.get?_tail_eq_none h.types hkey]
          rfl
        rw [if_pos hkey, if_pos hkey, hnone, boundTo_nil, Option.none_or]
      · rw [if_neg hkey, if_neg hkey, Option.none_or]

-- ============================================================ what is told

/-- Whether an entry of a type gives a callable, but one that fits no field
of the type. -/
def Unmatched (schema : Graphql.Schema) (type : String) (e : String × Entry) : Prop :=
  (∃ r, Gives e.2.content r) ∧ e.1 ≠ ruleEntry ∧ ¬schema.HasField type e.1

theorem unmatched_iff {schema : Graphql.Schema} {e : String × Entry} :
    (callable? e.2.content).isSome = true ∧ e.1 ≠ ruleEntry ∧ ¬schema.HasField type e.1
      ↔ Unmatched schema type e := by
  unfold Unmatched
  rw [Option.isSome_iff_exists]
  simp only [callable?_eq_some_iff]

instance (schema : Graphql.Schema) (type : String) (e : String × Entry) :
    Decidable (Unmatched schema type e) := decidable_of_iff _ unmatched_iff

/-- What is told of a section: that its type is not in the schema, or which
of its entries fit no field. -/
def toldOf (schema : Graphql.Schema) (e : Key × Section) : List Notice :=
  match e.2 with
  | .plain _ => []
  | .entries fields =>
      match typeOf? schema e.1 with
      | none => [.unknownResolverType e.1.value]
      | some (type, _) =>
          (fields.filter fun e => Unmatched schema type e).map fun e =>
            .unmatchedResolver type e.1

theorem notices_bindField (hkind : x.schema.kind? type = some kind) (e : String × Entry) :
    (x.bindField type kind e).notices
      = x.notices
        ++ if Unmatched x.schema type e then [.unmatchedResolver type e.1] else [] := by
  unfold bindField
  cases hcallable : callable? e.2.content with
  | none =>
      have hmatched : ¬Unmatched x.schema type e := by
        rw [← unmatched_iff, hcallable]
        exact fun h => (by cases h.1)
      rw [if_neg hmatched, List.append_nil]
  | some c =>
      have hunmatched : Unmatched x.schema type e
          ↔ e.1 ≠ ruleEntry ∧ e.1 ∉ x.schema.fieldNames type := by
        rw [← unmatched_iff, hcallable, Graphql.Schema.hasField_iff hkind]
        simp
      show (x.bindEntry type kind e.1 c).notices = _
      unfold bindEntry
      by_cases hrule : e.1 = ruleEntry
      · rw [if_pos hrule, if_neg fun h => (hunmatched.1 h).1 hrule, List.append_nil]
        split <;> rfl
      · rw [if_neg hrule]
        by_cases hfield : (x.schema.fieldNames type).contains e.1 = true
        · have hmem : e.1 ∈ x.schema.fieldNames type := by simpa using hfield
          rw [if_pos hfield, if_neg fun h => (hunmatched.1 h).2 hmem, List.append_nil]
        · have hmem : e.1 ∉ x.schema.fieldNames type := by simpa using hfield
          rw [if_neg hfield, if_pos (hunmatched.2 ⟨hrule, hmem⟩)]

theorem notices_foldl_bindField (hkind : x.schema.kind? type = some kind)
    (fields : List (String × Entry)) :
    (fields.foldl (fun x e => x.bindField type kind e) x).notices
      = x.notices ++ (fields.filter fun e => Unmatched x.schema type e).map fun e =>
          .unmatchedResolver type e.1 := by
  induction fields generalizing x with
  | nil => exact (List.append_nil _).symm
  | cons e fields ih =>
      have hkind' : (x.bindField type kind e).schema.kind? type = some kind := by
        rwa [schema_bindField]
      rw [List.foldl_cons, ih hkind', schema_bindField, notices_bindField hkind,
        List.filter_cons, List.append_assoc]
      by_cases hunmatched : Unmatched x.schema type e
      · simp [hunmatched]
      · simp [hunmatched]

theorem notices_bindSection (x : Executable) (e : Key × Section) :
    (x.bindSection e.1 e.2).notices = x.notices ++ toldOf x.schema e := by
  obtain ⟨key, s⟩ := e
  cases s with
  | plain => exact (List.append_nil _).symm
  | entries fields =>
      unfold bindSection toldOf
      dsimp only
      cases hfound : typeOf? x.schema key with
      | none => rfl
      | some found =>
          obtain ⟨type, kind⟩ := found
          exact notices_foldl_bindField (typeOf?_eq_some_iff.1 hfound).2 fields

/-- Binding a resolver map tells of its sections, one after another. -/
theorem notices_bindAll (x : Executable) (m : SectionMap) :
    (x.bindAll m).notices = x.notices ++ m.flatMap (toldOf x.schema) := by
  induction m generalizing x with
  | nil => exact (List.append_nil _).symm
  | cons e m ih =>
      show (Executable.bindAll (x.bindSection e.1 e.2) m).notices = _
      rw [ih, schema_bindSection, notices_bindSection, List.flatMap_cons, List.append_assoc]

end Executable

-- ================================================================== order

/-- Whether sections have the same entries, perhaps in another order. -/
def Section.Rearranged : Section → Section → Prop
  | .plain v, .plain w => v = w
  | .entries fields, .entries fields' => fields.Perm fields'
  | _, _ => False

/-- Whether maps have the same sections with the same entries, perhaps both
in another order. -/
def SectionMap.Rearranged (m m' : SectionMap) : Prop :=
  ∃ same : SectionMap,
    List.Forall₂ (fun e e' => e.1 = e'.1 ∧ e.2.Rearranged e'.2) m same ∧ same.Perm m'

namespace SectionMap

variable {m m' : SectionMap}

theorem fields_perm {s s' : Section} (h : s.Rearranged s') : s.fields.Perm s'.fields := by
  cases s <;> cases s' <;> first | exact h | exact h.elim | exact List.Perm.refl _

section

variable (h : List.Forall₂ (fun e e' => e.1 = e'.1 ∧ e.2.Rearranged e'.2) m m')

include h

theorem distinct_of_forall₂ (hm : Assoc.Distinct m) : Assoc.Distinct m' := by
  have hkeys : m'.map Prod.fst = m.map Prod.fst := by
    clear hm
    induction h with
    | nil => rfl
    | cons hhead _ ih => rw [List.map_cons, List.map_cons, hhead.1, ih]
  unfold Assoc.Distinct
  rw [hkeys]
  exact hm

/-- The entries of a type are there in another order. -/
theorem fieldsOf_perm_of_forall₂ (type : Key) : (m.fieldsOf type).Perm (m'.fieldsOf type) := by
  unfold fieldsOf
  induction h with
  | nil => exact List.Perm.refl _
  | cons hhead _ ih =>
      rw [Assoc.get?_cons, Assoc.get?_cons, hhead.1]
      split
      · exact fields_perm hhead.2
      · exact ih

end

/-- A map in another order has the same entries under its types and
names. -/
theorem Rearranged.get?_fieldsOf (h : m.Rearranged m') (hm : m.WellFormed) (type : Key)
    (name : String) :
    Assoc.get? (m'.fieldsOf type) name = Assoc.get? (m.fieldsOf type) name := by
  obtain ⟨same, hsame, hperm⟩ := h
  have hfields : m'.fieldsOf type = same.fieldsOf type := by
    unfold fieldsOf
    rw [Assoc.get?_perm (distinct_of_forall₂ hsame hm.types) hperm]
  rw [hfields, Assoc.get?_perm (hm.fieldsOf type) (fieldsOf_perm_of_forall₂ hsame type)]

theorem Rearranged.wellFormed (h : m.Rearranged m') (hm : m.WellFormed) : m'.WellFormed := by
  obtain ⟨same, hsame, hperm⟩ := h
  refine ⟨(distinct_of_forall₂ hsame hm.types).perm hperm, fun e' he' => ?_⟩
  obtain ⟨e, he, _, hentries⟩ := exists_of_mem_right hsame (hperm.mem_iff.2 he')
  exact (hm.fields e he).perm (fields_perm hentries)

end SectionMap

namespace Executable

open SectionMap (Rearranged fields_perm)

theorem toldOf_perm (schema : Graphql.Schema) {e e' : Key × Section} (hkey : e.1 = e'.1)
    (h : e.2.Rearranged e'.2) : (toldOf schema e).Perm (toldOf schema e') := by
  obtain ⟨key, s⟩ := e
  obtain ⟨key', s'⟩ := e'
  cases hkey
  cases s <;> cases s'
  · next fields fields' =>
      unfold toldOf
      dsimp only
      split
      · exact List.Perm.refl _
      · exact ((show fields.Perm fields' from h).filter _).map _
  · exact h.elim
  · exact h.elim
  · exact List.Perm.refl _

theorem flatMap_toldOf_perm (schema : Graphql.Schema) {m m' : SectionMap} (h : m.Rearranged m') :
    (m.flatMap (toldOf schema)).Perm (m'.flatMap (toldOf schema)) := by
  obtain ⟨same, hsame, hperm⟩ := h
  refine List.Perm.trans ?_ (hperm.flatMap_right _)
  clear hperm
  induction hsame with
  | nil => exact List.Perm.refl _
  | cons hhead _ ih =>
      rw [List.flatMap_cons, List.flatMap_cons]
      exact (toldOf_perm schema hhead.1 hhead.2).append ih

/-- Binding a resolver map leaves the schema as it is. A place holds a
callable exactly if the map binds it there, or binds nothing there and the
place has held it before; so it does whatever the order of the map. What is
told, section by section, are the types that the schema does not have and
the callables that fit no field, in the order of the map. -/
theorem bindAll_exact (x : Executable) (m : SectionMap) (h : m.WellFormed) :
    (x.bindAll m).schema = x.schema
      ∧ (∀ p r, (x.bindAll m).held? p = some r
          ↔ Binds x.schema m p r ∨ (∀ r', ¬Binds x.schema m p r') ∧ x.held? p = some r)
      ∧ (x.bindAll m).notices = x.notices ++ m.flatMap (toldOf x.schema)
      ∧ ∀ m' : SectionMap, m.Rearranged m' →
          (∀ p, (x.bindAll m').held? p = (x.bindAll m).held? p)
            ∧ (x.bindAll m').notices.Perm (x.bindAll m).notices := by
  refine ⟨schema_bindAll x m, fun p r => ?_, notices_bindAll x m, fun m' hm' => ⟨fun p => ?_, ?_⟩⟩
  · rw [held?_bindAll x h, Option.or_eq_some_iff, boundTo_eq_some_iff,
      Option.eq_none_iff_forall_ne_some]
    simp only [ne_eq, boundTo_eq_some_iff]
  · rw [held?_bindAll x h, held?_bindAll x (hm'.wellFormed h)]
    unfold boundTo
    rw [hm'.get?_fieldsOf h]
  · rw [notices_bindAll, notices_bindAll]
    exact ((flatMap_toldOf_perm x.schema hm').append_left _).symm

/-- Pages, and a union of them. -/
def pageSchema : Graphql.Schema :=
  { types := [⟨"Page", none, .object [⟨"title", none, .named "String", none, []⟩]⟩,
      ⟨"Content", none, .union ["Page"]⟩]
    scalars := ["String"]
    roots := [] }

/-- Resolvers for pages and contents, one of them for a field that pages do
not have, and for a type that there is not. -/
def pageResolvers : SectionMap :=
  [(.ofText "Page", .entries [("title", ⟨.given (.callable "shown"), none⟩),
      ("date", ⟨.given (.callable "now"), none⟩)]),
    (.ofText "Image", .entries []),
    (.ofText "Content", .entries [("__resolveType",
      ⟨.given (.map [("resolve", .null), ("resolver", .callable "pick")]), none⟩)])]

theorem wellFormed_pageResolvers : pageResolvers.WellFormed := by
  refine ⟨by unfold Assoc.Distinct; decide, fun e he => ?_⟩
  simp only [pageResolvers, List.mem_cons, List.not_mem_nil, or_false] at he
  rcases he with rfl | rfl | rfl <;> unfold Assoc.Distinct <;> decide

theorem bindAll_exact_page :
    pageResolvers.WellFormed
      ∧ (bind pageSchema pageResolvers).resolver? "Page" "title" = some (.given (.callable "shown"))
      ∧ (bind pageSchema pageResolvers).typeRule? "Content" = some (.given (.callable "pick"))
      ∧ (bind pageSchema pageResolvers).notices
        = [.unmatchedResolver "Page" "date", .unknownResolverType (.str "Image")] := by
  obtain ⟨_, hheld, htold, _⟩ :=
    bindAll_exact { schema := pageSchema } pageResolvers wellFormed_pageResolvers
  refine ⟨wellFormed_pageResolvers, ?_, ?_, ?_⟩
  · refine (hheld (.field "Page" "title") _).2 (Or.inl ⟨by decide, _, rfl, ?_⟩)
    exact Gives.itself rfl
  · refine (hheld (.rule "Content") _).2 (Or.inl ⟨by decide, _, rfl, ?_⟩)
    exact Gives.resolver (fun g hg => (by cases hg)) rfl
  · refine htold.trans ?_
    decide

end Executable

end ModelSchema
