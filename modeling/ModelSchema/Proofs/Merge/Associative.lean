/-
Merging in another grouping. Texts, object types and sources come out the
same however fragments are grouped, and so do maps whose sections are
maps. A section that is no map undoes this: it replaces the entries before
it, and is itself replaced by the entries after it, so that what it has
replaced comes back if the last two are merged first. Groupings differ in
what they hold exactly if an entry comes back in this way
(`merge_assoc_iff`).
-/
import ModelSchema.Proofs.Merge.Reference

namespace ModelSchema

-- ============================================================ one section

namespace Section

/-- Two sections hold the same, whatever the order of their entries. -/
def Same : Section → Section → Prop
  | .entries es, .entries es' => ∀ name, Assoc.get? es name = Assoc.get? es' name
  | .plain v, .plain w => v = w
  | _, _ => False

theorem Same.refl (s : Section) : s.Same s := by
  cases s with
  | entries es => exact fun _ => rfl
  | plain v => rfl

/-- A section that is no map stands between two that are. -/
def Parted (a b c : Option Section) : Prop :=
  ∃ old v new, a = some (.entries old) ∧ b = some (.plain v) ∧ c = some (.entries new)

theorem after_plain (earlier : Option Section) (v : Value) :
    after earlier (.plain v) = .plain v := by
  rcases earlier with _ | old | w <;> rfl

variable {a b c : Option Section}

/-- Sections that are not parted may be joined in either grouping. -/
theorem join_assoc (ha : ∀ s, a = some s → Assoc.Distinct s.fields)
    (hb : ∀ s, b = some s → Assoc.Distinct s.fields)
    (hc : ∀ s, c = some s → Assoc.Distinct s.fields) (h : ¬ Parted a b c) :
    join (join a b) c = join a (join b c) := by
  rcases c with _ | new | w
  · rfl
  · rcases b with _ | middle | v
    · rfl
    · rcases a with _ | old | u
      · rfl
      · have hold := ha _ rfl
        have hmiddle := hb _ rfl
        have hnew := hc _ rfl
        exact congrArg (some ∘ Section.entries) (Assoc.putAll_assoc hold hmiddle hnew)
      · rfl
    · rcases a with _ | old | u
      · rfl
      · exact absurd ⟨old, v, new, rfl, rfl, rfl⟩ h
      · rfl
  · simp only [join, after_plain]

end Section

-- ============================================================= whole maps

namespace SectionMap

/-- Two maps hold the same, whatever their order on either level. -/
def Same (m m' : SectionMap) : Prop :=
  ∀ type, Option.Rel Section.Same (Assoc.get? m type) (Assoc.get? m' type)

/-- The sections of some type are parted. -/
def Parted (a b c : SectionMap) : Prop :=
  ∃ type, Section.Parted (Assoc.get? a type) (Assoc.get? b type) (Assoc.get? c type)

/-- An entry of the first map is under a type for which the second holds no
map, and the third a map without that entry. -/
def Revives (a b c : SectionMap) : Prop :=
  ∃ type old v new name, Assoc.get? a type = some (.entries old)
    ∧ Assoc.get? b type = some (.plain v) ∧ Assoc.get? c type = some (.entries new)
    ∧ Assoc.has old name = true ∧ Assoc.has new name = false

variable {a b c : SectionMap}

theorem merge_nil_left (h : Assoc.Distinct a) : merge [] a = a := by
  refine Assoc.eq_of_keys_of_get? (distinct_merge Assoc.distinct_nil a) ?_ fun type => ?_
  · rw [keys_merge]
    exact Morph.firstsAfter_eq_self (fun _ _ => rfl) h
  · rw [get?_merge [] h, Assoc.get?_nil]
    cases Assoc.get? a type with
    | none => rfl
    | some s => exact congrArg some (Section.after_none s)

section

variable (hb : Assoc.Distinct b) (hc : Assoc.Distinct c)
include hb hc

theorem get?_merge_left (type : Key) :
    Assoc.get? ((a.merge b).merge c) type
      = Section.join (Section.join (Assoc.get? a type) (Assoc.get? b type))
          (Assoc.get? c type) := by
  rw [get?_merge _ hc, get?_merge a hb]

theorem get?_merge_right (type : Key) :
    Assoc.get? (a.merge (b.merge c)) type
      = Section.join (Assoc.get? a type)
          (Section.join (Assoc.get? b type) (Assoc.get? c type)) := by
  rw [get?_merge a (distinct_merge hb c), get?_merge b hc]

end

variable (ha : a.WellFormed) (hb : b.WellFormed) (hc : c.WellFormed)
include ha hb hc

/-- Maps of which no section is parted may be merged in either
grouping. -/
theorem merge_assoc (h : ¬ Parted a b c) : (a.merge b).merge c = a.merge (b.merge c) := by
  refine Assoc.eq_of_keys_of_get? (distinct_merge (distinct_merge ha.types b) c) ?_ fun type => ?_
  · simp only [keys_merge]
    exact Morph.append_firstsAfter_assoc _ _ _
  · rw [get?_merge_left hb.types hc.types, get?_merge_right hb.types hc.types]
    exact Section.join_assoc (fun _ => ha.get?) (fun _ => hb.get?) (fun _ => hc.get?)
      fun hparted => h ⟨type, hparted⟩

/-- Both groupings hold the same exactly if no entry is revived. -/
theorem same_merge_iff : Same ((a.merge b).merge c) (a.merge (b.merge c)) ↔ ¬ Revives a b c := by
  constructor
  · rintro h ⟨type, old, v, new, name, hold, hplain, hnew, hhas, hlacks⟩
    have hrel := h type
    rw [get?_merge_left hb.types hc.types, get?_merge_right hb.types hc.types, hold, hplain,
      hnew] at hrel
    cases hrel with
    | some hsame =>
        -- on the left the entry is gone, on the right it is there
        have hdistinct : Assoc.Distinct new := hc.get? hnew
        have hentry : Assoc.get? new name = Assoc.get? (Assoc.putAll old new) name := hsame name
        rw [Assoc.get?_putAll hdistinct, (Assoc.get?_eq_none_iff new name).2 hlacks,
          Option.none_or] at hentry
        have hgone := (Assoc.get?_eq_none_iff old name).1 hentry.symm
        rw [hhas] at hgone
        cases hgone
  · intro h type
    rw [get?_merge_left hb.types hc.types, get?_merge_right hb.types hc.types]
    by_cases hparted : Section.Parted (Assoc.get? a type) (Assoc.get? b type) (Assoc.get? c type)
    · obtain ⟨old, v, new, hold, hplain, hnew⟩ := hparted
      have hdistinct : Assoc.Distinct new := hc.get? hnew
      rw [hold, hplain, hnew]
      refine Option.Rel.some fun name => ?_
      show Assoc.get? new name = Assoc.get? (Assoc.putAll old new) name
      rw [Assoc.get?_putAll hdistinct]
      cases hentry : Assoc.get? new name with
      | some e => rfl
      | none =>
          have hlacks := (Assoc.get?_eq_none_iff new name).1 hentry
          cases hhas : Assoc.has old name with
          | false => exact ((Assoc.get?_eq_none_iff old name).2 hhas).symm
          | true => exact absurd ⟨type, old, v, new, name, hold, hplain, hnew, hhas, hlacks⟩ h
    · rw [Section.join_assoc (fun _ => ha.get?) (fun _ => hb.get?) (fun _ => hc.get?) hparted]
      generalize Section.join _ _ = held
      cases held with
      | none => exact Option.Rel.none
      | some s => exact Option.Rel.some (Section.Same.refl s)

end SectionMap

-- ============================================================== fragments

namespace Fragment

/-- Two fragments hold the same, whatever the order within their maps. -/
structure Same (f g : Fragment) : Prop where
  definition : f.definition = g.definition
  query : f.query = g.query
  mutation : f.mutation = g.mutation
  type : f.type.Same g.type
  resolver : f.resolver.Same g.resolver
  objectTypes : f.objectTypes = g.objectTypes
  sources : ∀ key, Assoc.get? f.sources key = Assoc.get? g.sources key

/-- A fragment that tells each of its object types once, and not the root
of queries. -/
def normalized (f : Fragment) : Fragment :=
  { f with objectTypes := Morph.uniqueKeys f.objectTypes }

/-- A fragment whose maps repeat no type, and whose resolvers each have one
source. -/
structure Distinct (f : Fragment) : Prop where
  type : Assoc.Distinct f.type
  resolver : Assoc.Distinct f.resolver
  sources : Assoc.Distinct f.sources

theorem WellFormed.distinct {f : Fragment} (h : f.WellFormed) : f.Distinct :=
  ⟨h.type.types, h.resolver.types, h.sources⟩

theorem distinct_empty : empty.Distinct :=
  ⟨Assoc.distinct_nil, Assoc.distinct_nil, Assoc.distinct_nil⟩

theorem Distinct.append {f : Fragment} (h : f.Distinct) (g : Fragment) : (f.append g).Distinct :=
  ⟨SectionMap.distinct_merge h.type g.type, SectionMap.distinct_merge h.resolver g.resolver,
    Assoc.distinct_putAll g.sources h.sources⟩

theorem Distinct.normalized {f : Fragment} (h : f.Distinct) : f.normalized.Distinct :=
  ⟨h.type, h.resolver, h.sources⟩

theorem empty_append {f : Fragment} (h : f.Distinct) : empty.append f = f := by
  unfold append empty
  rw [SectionMap.merge_nil_left h.type, SectionMap.merge_nil_left h.resolver,
    Assoc.putAll_nil_left h.sources]
  rfl

theorem append_empty (f : Fragment) : f.append empty = f := by
  simp only [append, empty, List.append_nil]
  rfl

theorem merge_pair {f : Fragment} (h : f.Distinct) (g : Fragment) :
    merge [f, g] = (f.append g).normalized :=
  congrArg (fun start => (start.append g).normalized) (empty_append h)

/-- Object types may be told once before they are merged with more. -/
theorem normalized_append (f g : Fragment) :
    (f.normalized.append g).normalized = (f.append g).normalized := by
  exact congrArg (fun names => { f.append g with objectTypes := names })
    (Morph.uniqueKeys_append_left f.objectTypes g.objectTypes)

theorem append_normalized (f g : Fragment) :
    (f.append g.normalized).normalized = (f.append g).normalized := by
  exact congrArg (fun names => { f.append g with objectTypes := names })
    (Morph.uniqueKeys_append_right f.objectTypes g.objectTypes)

variable {a b c : Fragment}

theorem merge_left (ha : a.Distinct) :
    merge [merge [a, b], c] = ((a.append b).append c).normalized := by
  rw [merge_pair ha, merge_pair (ha.append b).normalized, normalized_append]

theorem merge_right (ha : a.Distinct) (hb : b.Distinct) :
    merge [a, merge [b, c]] = (a.append (b.append c)).normalized := by
  rw [merge_pair hb, merge_pair ha, append_normalized]

/-- Fragments may be merged in either grouping if no section is parted; in
general both groupings hold the same exactly if no entry is revived. The
merge of nothing is a unit. -/
theorem merge_assoc_iff (ha : a.WellFormed) (hb : b.WellFormed) (hc : c.WellFormed) :
    (Same (merge [merge [a, b], c]) (merge [a, merge [b, c]])
        ↔ ¬ SectionMap.Revives a.type b.type c.type
          ∧ ¬ SectionMap.Revives a.resolver b.resolver c.resolver)
      ∧ (¬ SectionMap.Parted a.type b.type c.type →
          ¬ SectionMap.Parted a.resolver b.resolver c.resolver →
          merge [merge [a, b], c] = merge [a, merge [b, c]])
      ∧ merge [merge [], a] = a.normalized
      ∧ merge [a, merge []] = a.normalized := by
  have hsources : Assoc.putAll (Assoc.putAll a.sources b.sources) c.sources
      = Assoc.putAll a.sources (Assoc.putAll b.sources c.sources) :=
    Assoc.putAll_assoc ha.sources hb.sources hc.sources
  have htypes := SectionMap.same_merge_iff ha.type hb.type hc.type
  have hresolvers := SectionMap.same_merge_iff ha.resolver hb.resolver hc.resolver
  rw [merge_left ha.distinct, merge_right ha.distinct hb.distinct]
  refine ⟨⟨fun h => ⟨htypes.1 h.type, hresolvers.1 h.resolver⟩, fun ⟨htype, hresolver⟩ => ?_⟩,
    fun htype hresolver => ?_, ?_, ?_⟩
  · exact {
      definition := List.append_assoc _ _ _
      query := List.append_assoc _ _ _
      mutation := List.append_assoc _ _ _
      type := htypes.2 htype
      resolver := hresolvers.2 hresolver
      objectTypes := congrArg Morph.uniqueKeys (List.append_assoc _ _ _)
      sources := fun key => congrArg (Assoc.get? · key) hsources }
  · unfold append
    rw [SectionMap.merge_assoc ha.type hb.type hc.type htype,
      SectionMap.merge_assoc ha.resolver hb.resolver hc.resolver hresolver, hsources]
    simp only [List.append_assoc]
  · show merge [empty, a] = a.normalized
    rw [merge_pair distinct_empty, empty_append ha.distinct]
  · show merge [a, empty] = a.normalized
    rw [merge_pair ha.distinct, append_empty]

/-- A fragment that resolves the queries of one name. -/
def queryFragment (name : String) : Fragment :=
  { resolver := [(.ofText "Query", .entries [(name, resolverEntry name 0)])]
    objectTypes := [.ofText "Query", .ofText "Page"] }

/-- A fragment that has a value for resolvers of queries that is no map. -/
def switchedOff : Fragment :=
  { resolver := [(.ofText "Query", .plain (.bool false))] }

theorem wellFormed_queryFragment (name : String) : (queryFragment name).WellFormed := by
  refine ⟨⟨Assoc.distinct_nil, fun _ h => (by cases h)⟩, ⟨?_, fun e he => ?_⟩, Assoc.distinct_nil⟩
  · exact List.pairwise_singleton _ _
  · cases List.mem_singleton.1 he
    exact List.pairwise_singleton _ _

theorem wellFormed_switchedOff : switchedOff.WellFormed := by
  refine ⟨⟨Assoc.distinct_nil, fun _ h => (by cases h)⟩, ⟨?_, fun e he => ?_⟩, Assoc.distinct_nil⟩
  · exact List.pairwise_singleton _ _
  · cases List.mem_singleton.1 he
    exact Assoc.distinct_nil

/-- What is switched off last stays off, in either grouping. -/
theorem merge_assoc_iff_switchedOff :
    ((queryFragment "a").WellFormed ∧ (queryFragment "b").WellFormed ∧ switchedOff.WellFormed)
      ∧ merge [merge [queryFragment "a", queryFragment "b"], switchedOff]
          = merge [queryFragment "a", merge [queryFragment "b", switchedOff]]
      ∧ merge [merge [], queryFragment "a"] = (queryFragment "a").normalized := by
  have ha := wellFormed_queryFragment "a"
  have hb := wellFormed_queryFragment "b"
  have hassoc := merge_assoc_iff ha hb wellFormed_switchedOff
  refine ⟨⟨ha, hb, wellFormed_switchedOff⟩, hassoc.2.1 ?_ ?_, hassoc.2.2.1⟩
  · rintro ⟨type, _, _, _, h, _⟩
    cases h
  · rintro ⟨type, _, _, new, _, _, h⟩
    obtain ⟨key, hmem, _⟩ := Assoc.mem_of_get?_eq_some h
    cases List.mem_singleton.1 hmem

/-- What is switched off in between is lost or comes back, depending on the
grouping. -/
theorem merge_not_assoc :
    ((queryFragment "a").WellFormed ∧ switchedOff.WellFormed ∧ (queryFragment "b").WellFormed)
      ∧ (merge [merge [queryFragment "a", switchedOff], queryFragment "b"]).resolver
          = [(.ofText "Query", .entries [("b", resolverEntry "b" 0)])]
      ∧ (merge [queryFragment "a", merge [switchedOff, queryFragment "b"]]).resolver
          = [(.ofText "Query", .entries [("a", resolverEntry "a" 0), ("b", resolverEntry "b" 0)])]
      ∧ ¬ Same (merge [merge [queryFragment "a", switchedOff], queryFragment "b"])
          (merge [queryFragment "a", merge [switchedOff, queryFragment "b"]]) := by
  refine ⟨⟨wellFormed_queryFragment "a", wellFormed_switchedOff, wellFormed_queryFragment "b"⟩,
    rfl, rfl, fun h => ?_⟩
  cases h.resolver (.ofText "Query") with
  | some hsame =>
      have hentry := hsame "a"
      cases hentry

end Fragment

end ModelSchema
