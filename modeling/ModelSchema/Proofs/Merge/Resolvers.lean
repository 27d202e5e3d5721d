/-
The resolvers of a compiled schema. They come out of three merges of
different grain: the contributed fragments among themselves, the type rules
of dynamic zones with what is contributed, and last the rule of the union
of object types. The first two go entry by entry, so that what is
contributed wins (`get?_fieldsOf_merged`). The last one puts its section in
place of the whole section of the union, contributed entries and all; so
contributed resolvers win everywhere exactly if there is no such rule, or
nothing else is contributed for the union (`resolvers_given_iff`).
-/
import ModelSchema.Proofs.Merge.Associative
import ModelSchema.Proofs.Outline.Schema

namespace ModelSchema

-- ============================================================ merged maps

namespace SectionMap

variable {a b : SectionMap}

theorem wellFormed_nil : WellFormed [] := ⟨Assoc.distinct_nil, fun _ he => (by cases he)⟩

theorem allMaps_nil : AllMaps [] := fun _ he => (by cases he)

/-- Entries that repeat no name still repeat none after later ones. -/
theorem distinct_fields_after {earlier : Option Section} {later : Section}
    (hearlier : ∀ s, earlier = some s → Assoc.Distinct s.fields)
    (hlater : Assoc.Distinct later.fields) :
    Assoc.Distinct (Section.after earlier later).fields := by
  unfold Section.after
  split
  · next old new => exact Assoc.distinct_putAll new (hearlier _ rfl)
  · exact hlater

theorem WellFormed.merge (ha : a.WellFormed) (hb : b.WellFormed) : (a.merge b).WellFormed := by
  have htypes := distinct_merge ha.types b
  refine ⟨htypes, fun e he => ?_⟩
  have hfound := Assoc.get?_of_mem htypes (k := e.1) (v := e.2) he
  rw [get?_merge a hb.types] at hfound
  cases hlater : Assoc.get? b e.1 with
  | none =>
      rw [hlater] at hfound
      exact ha.get? hfound
  | some later =>
      rw [hlater] at hfound
      rw [← Option.some.inj hfound]
      exact distinct_fields_after (fun _ hs => ha.get? hs) (hb.get? hlater)

theorem wellFormed_foldl {parts : List SectionMap} (ha : a.WellFormed)
    (h : ∀ part ∈ parts, part.WellFormed) : (parts.foldl merge a).WellFormed := by
  induction parts generalizing a with
  | nil => exact ha
  | cons part parts ih =>
      refine ih (ha.merge (h part List.mem_cons_self)) fun q hq => ?_
      exact h q (List.mem_cons_of_mem _ hq)

/-- A section that is put replaces that of its type as a whole. -/
theorem fieldsOf_put (type type' : Key) (s : Section) (m : SectionMap) :
    fieldsOf (Assoc.put type s m) type'
      = if type == type' then s.fields else m.fieldsOf type' := by
  unfold fieldsOf
  rw [Assoc.get?_put]
  split <;> rfl

theorem fieldsOf_congr {type type' : Key} (h : (type == type') = true) (m : SectionMap) :
    m.fieldsOf type = m.fieldsOf type' := by
  unfold fieldsOf
  rw [Assoc.get?_congr h]

/-- A map of maps that repeats no name and has entries of one kind only. -/
structure Holds (P : Key → String → Entry → Prop) (map : SectionMap) : Prop where
  maps : map.AllMaps
  wellFormed : map.WellFormed
  entries : ∀ type name e, Assoc.get? (map.fieldsOf type) name = some e → P type name e

theorem holds_nil (P : Key → String → Entry → Prop) : Holds P [] :=
  ⟨allMaps_nil, wellFormed_nil, fun _ _ _ h => (by cases h)⟩

theorem Holds.imp {P Q : Key → String → Entry → Prop} {map : SectionMap} (h : map.Holds P)
    (hPQ : ∀ type name e, P type name e → Q type name e) : map.Holds Q :=
  ⟨h.maps, h.wellFormed, fun type name e he => hPQ type name e (h.entries type name e he)⟩

/-- A section of one entry may be put to a map of such entries. -/
theorem Holds.put {P : Key → String → Entry → Prop} {map : SectionMap} (h : map.Holds P)
    {type : Key} {name : String} {e : Entry}
    (he : ∀ type', (type == type') = true → P type' name e) :
    Holds P (Assoc.put type (.entries [(name, e)]) map) := by
  refine ⟨fun e' he' => ?_, ⟨Assoc.distinct_put _ _ h.wellFormed.types, fun e' he' => ?_⟩, ?_⟩
  · rcases Assoc.mem_put he' with hold | hnew
    · exact h.maps e' hold
    · rw [hnew]
      trivial
  · rcases Assoc.mem_put he' with hold | hnew
    · exact h.wellFormed.fields e' hold
    · rw [hnew]
      exact List.pairwise_singleton _ _
  · intro type' name' e' hfound
    rw [fieldsOf_put] at hfound
    split at hfound
    · next htype =>
        obtain ⟨name'', hmem, hname⟩ := Assoc.mem_of_get?_eq_some hfound
        cases List.mem_singleton.1 hmem
        rw [← beq_iff_eq.1 hname]
        exact he type' htype
    · exact h.entries type' name' e' hfound

end SectionMap

-- ======================================================== rules of zones

namespace Compiler

variable {c : Compiler} {m : Model}

/-- Whether an entry is the type rule of an exposed dynamic zone of a model:
it stands under the name of the zone's union, and it picks among the zone's
components by their uids. -/
def IsZoneRule (c : Compiler) (m : Model) (type : Key) (name : String) (e : Entry) : Prop :=
  name = "__resolveType" ∧ ∃ zone ∈ c.exposedOf .dynamicZone m,
    (Key.ofText (Attribute.zoneName m.globalId zone.1) == type) = true
      ∧ ∃ found members, Zones.members c.registry zone.2.components = .ok found
        ∧ found.mapM Zones.memberName = .ok members ∧ found ≠ []
        ∧ e = ⟨.zoneRule members, none⟩

/-- One more zone puts its own rule, if it has one, to those of others. -/
theorem holds_add {zones zones' : Zones} {zone : String × Attribute}
    (hzone : zone ∈ c.exposedOf .dynamicZone m)
    (hzones : zones.resolvers.Holds (c.IsZoneRule m))
    (h : Zones.add c.registry m zones zone.1 zone.2 = .ok zones') :
    zones'.resolvers.Holds (c.IsZoneRule m) := by
  obtain ⟨found, hfound, h⟩ := bind_eq_ok.1 h
  by_cases hempty : found.isEmpty = true
  · rw [if_pos hempty] at h
    cases h
    exact hzones
  · rw [if_neg hempty] at h
    obtain ⟨members, hmembers, h⟩ := bind_eq_ok.1 h
    cases h
    refine hzones.put fun type htype => ?_
    exact ⟨rfl, zone, hzone, htype, found, members, hfound, hmembers,
      fun hnil => hempty (List.isEmpty_iff.2 hnil), rfl⟩

/-- The resolvers that the zones of a model come with are their type
rules. -/
theorem holds_dynamicZones {zones : Zones} (h : c.dynamicZones m = .ok zones) :
    zones.resolvers.Holds (c.IsZoneRule m) := by
  suffices ∀ attributes ⊆ c.exposedOf .dynamicZone m, ∀ start : Zones,
      start.resolvers.Holds (c.IsZoneRule m) →
      attributes.foldlM (fun zones zone => zones.add c.registry m zone.1 zone.2) start = .ok zones →
      zones.resolvers.Holds (c.IsZoneRule m) by
    exact this _ (List.Subset.refl _) {} (SectionMap.holds_nil _) h
  intro attributes
  induction attributes with
  | nil =>
      intro _ start hstart h
      cases h
      exact hstart
  | cons zone attributes ih =>
      intro hsub start hstart h
      rw [List.foldlM_cons] at h
      obtain ⟨next, hnext, h⟩ := bind_eq_ok.1 h
      exact ih (fun z hz => hsub (List.mem_cons_of_mem _ hz)) next
        (holds_add (hsub List.mem_cons_self) hstart hnext) h

-- ==================================================== generated fragments

/-- Whether an entry is the type rule of a dynamic zone of a registered
model. -/
def IsRegistryRule (c : Compiler) (type : Key) (name : String) (e : Entry) : Prop :=
  ∃ m ∈ c.registry.models.map Prod.snd, c.IsZoneRule m type name e

theorem operations_resolver {f : Fragment} (h : c.operations m = .ok f) : f.resolver = [] := by
  rw [operations_eq] at h
  obtain ⟨_, _, h⟩ := bind_eq_ok.1 h
  obtain ⟨_, _, h⟩ := bind_eq_ok.1 h
  cases h
  rfl

/-- The fragment of a model resolves its dynamic zones and nothing else. -/
theorem holds_modelFragment {p q : Progress} {f : Fragment}
    (h : (c.modelFragment m).Yields p f q) : f.resolver.Holds (c.IsZoneRule m) := by
  obtain ⟨zones, _, _, _, _, _, hzones, _, _, _, _, _, hcase⟩ := modelFragment_inv h
  have hrules := holds_dynamicZones hzones
  rcases hcase with ⟨_, rfl⟩ | ⟨_, operations, hoperations, rfl⟩
  · exact hrules
  · rw [Fragment.merge_resolver, List.map_cons, List.map_singleton, List.foldl_cons,
      List.foldl_cons, List.foldl_nil, operations_resolver hoperations]
    show (SectionMap.merge [] zones.resolvers).Holds _
    rw [SectionMap.merge_nil_left hrules.wellFormed.types]
    exact hrules

/-- The fragments of a registry resolve the dynamic zones of its models and
nothing else. -/
theorem holds_generated {p q : Progress} {fs : List Fragment} (h : c.generated.Yields p fs q) :
    ∀ f ∈ fs, f.resolver.Holds c.IsRegistryRule := by
  obtain ⟨components, models, p', hcomponents, hmodels, rfl⟩ := generated_inv h
  intro f hf
  rcases List.mem_append.1 hf with hf | hf
  · obtain ⟨_, _, _, _, hrun⟩ := Work.mem_of_mem_mapM_yields hcomponents hf
    obtain ⟨_, _, _, _, _, _, _, _, _, _, rfl⟩ := componentFragment_inv hrun
    exact SectionMap.holds_nil _
  · obtain ⟨m, hm, _, _, hrun⟩ := Work.mem_of_mem_mapM_yields hmodels hf
    exact (holds_modelFragment hrun).imp fun type name e he => ⟨m, hm, he⟩

end Compiler

-- ==================================================== contributed entries

namespace Fragment

/-- What fragments give under a type and a name: the entry of the last one
that has one there. -/
def lastGiven (fs : List Fragment) (type : Key) (name : String) : Option Entry :=
  fs.reverse.findSome? fun f => Assoc.get? (f.resolversFor type) name

/-- Fragments whose resolver maps are maps of maps that repeat no name. -/
def ResolveByMaps (fs : List Fragment) : Prop :=
  ∀ f ∈ fs, f.resolver.AllMaps ∧ f.resolver.WellFormed

/-- A type is found under every form of its name. -/
theorem lastGiven_congr {type type' : Key} (h : (type == type') = true) (fs : List Fragment)
    (name : String) : lastGiven fs type name = lastGiven fs type' name := by
  unfold lastGiven resolversFor
  refine congrArg fs.reverse.findSome? (funext fun f => ?_)
  rw [SectionMap.fieldsOf_congr h]

variable {fs : List Fragment}

theorem get?_fieldsOf_merge (h : ResolveByMaps fs) (type : Key) (name : String) :
    Assoc.get? ((merge fs).resolversFor type) name = lastGiven fs type name := by
  have hmerged : SectionMap.MergedFrom (fs.map resolver) _ :=
    SectionMap.mergedFrom_foldl fun part hpart => by
      obtain ⟨f, hf, rfl⟩ := List.mem_map.1 hpart
      exact h f hf
  unfold resolversFor lastGiven
  rw [merge_resolver, hmerged.entry, ← List.map_reverse, List.findSome?_map]
  rfl

theorem resolveByMaps_merge (h : ResolveByMaps fs) :
    (merge fs).resolver.AllMaps ∧ (merge fs).resolver.WellFormed := by
  rw [merge_resolver]
  refine ⟨SectionMap.allMaps_foldl_merge SectionMap.allMaps_nil fun part hpart => ?_,
    SectionMap.wellFormed_foldl SectionMap.wellFormed_nil fun part hpart => ?_⟩
  · obtain ⟨f, hf, rfl⟩ := List.mem_map.1 hpart
    exact (h f hf).1
  · obtain ⟨f, hf, rfl⟩ := List.mem_map.1 hpart
    exact (h f hf).2

/-- The entries of the map of the union's resolvers put last: in the section
of the union there is its type rule and nothing else. -/
theorem get?_fieldsOf_morphResolvers (m : SectionMap) (members : List Key) (type : Key)
    (name : String) :
    Assoc.get? (SectionMap.fieldsOf (Assoc.putAll m (morphResolvers members)) type) name
      = if members ≠ [] ∧ (Key.ofText Morph.unionName == type) = true then
          if name = "__resolveType" then some ⟨.morphRule, none⟩ else none
        else Assoc.get? (m.fieldsOf type) name := by
  cases members with
  | nil => rfl
  | cons k members =>
      show Assoc.get? (SectionMap.fieldsOf (Assoc.put (Key.ofText Morph.unionName) _ m) type) name
        = _
      rw [SectionMap.fieldsOf_put]
      by_cases htype : (Key.ofText Morph.unionName == type) = true
      · rw [if_pos htype, if_pos ⟨List.cons_ne_nil _ _, htype⟩]
        show Assoc.get? [("__resolveType", _)] name = _
        rw [Assoc.get?_cons, Assoc.get?_nil]
        by_cases hname : name = "__resolveType"
        · rw [if_pos hname, if_pos (beq_iff_eq.2 hname.symm)]
        · rw [if_neg hname, if_neg fun h => hname (beq_iff_eq.1 h).symm]
      · rw [if_neg htype, if_neg fun h => htype h.2]

end Fragment

-- ========================================================== whole schemas

namespace Compiler

open Fragment (ResolveByMaps lastGiven)

variable {registry : Registry} {fragments : List Fragment} {visibility : Option Visibility}
  {config : Config} {p q : Progress} {s : CompiledSchema}

/-- Whether an entry is the type rule of the union of object types, which
there is if the union has members. -/
def IsMorphRule (s : CompiledSchema) (type : Key) (name : String) (e : Entry) : Prop :=
  s.morph ≠ [] ∧ (Key.ofText Morph.unionName == type) = true ∧ name = "__resolveType"
    ∧ e = ⟨.morphRule, none⟩

/-- Before the rule of the union is put, contributed entries win over the
generated ones, which are type rules of dynamic zones. -/
theorem get?_fieldsOf_merged (hfragments : ResolveByMaps fragments)
    (h : (ofFragments registry fragments visibility config).build.Yields p s q) (type : Key)
    (name : String) :
    ∃ generated, Assoc.get? (s.fragment.resolver.fieldsOf type) name
        = (lastGiven fragments type name).or generated
      ∧ ∀ e, generated = some e →
        (ofFragments registry fragments visibility config).IsRegistryRule type name e := by
  obtain ⟨fs, _, _, _, _, hgenerated, _, _, rfl⟩ := build_inv h
  have hrules := holds_generated hgenerated
  have hall : ResolveByMaps (fs ++ [Fragment.merge fragments]) := by
    intro f hf
    rcases List.mem_append.1 hf with hf | hf
    · exact ⟨(hrules f hf).maps, (hrules f hf).wellFormed⟩
    · rw [List.mem_singleton.1 hf]
      exact Fragment.resolveByMaps_merge hfragments
  refine ⟨lastGiven fs type name, ?_, fun e he => ?_⟩
  · refine (Fragment.get?_fieldsOf_merge hall type name).trans ?_
    rw [← Fragment.get?_fieldsOf_merge hfragments, lastGiven, List.reverse_append,
      List.reverse_singleton, List.singleton_append, List.findSome?_cons]
    cases Assoc.get? ((Fragment.merge fragments).resolversFor type) name <;> rfl
  · obtain ⟨f, hf, hfound⟩ := List.exists_of_findSome?_eq_some he
    exact (hrules f (List.mem_reverse.1 hf)).entries type name e hfound

/-- What a compiled schema resolves: contributed entries win over generated
ones, except that the union of object types has its own type rule and
nothing else, if it has members. -/
theorem get?_resolvers (h : (ofFragments registry fragments visibility config).build.Yields p s q)
    (type : Key) (name : String) :
    Assoc.get? (s.resolvers.fieldsOf type) name
      = if s.morph ≠ [] ∧ (Key.ofText Morph.unionName == type) = true then
          if name = "__resolveType" then some ⟨.morphRule, none⟩ else none
        else Assoc.get? (s.fragment.resolver.fieldsOf type) name := by
  obtain ⟨_, _, _, _, _, _, _, _, rfl⟩ := build_inv h
  exact Fragment.get?_fieldsOf_morphResolvers _ _ type name

/-- Contributed resolvers win over generated ones exactly if there is no
rule for the union of object types, or no other entry is contributed for
it. What is not contributed is a type rule in any case. -/
theorem resolvers_given_iff (hfragments : ResolveByMaps fragments)
    (h : (ofFragments registry fragments visibility config).build.Yields p s q) :
    ((∀ type name e, lastGiven fragments type name = some e →
          (Assoc.get? (s.resolvers.fieldsOf type) name).map Entry.content = some e.content)
        ↔ s.morph = [] ∨ ∀ name e,
            lastGiven fragments (.ofText Morph.unionName) name = some e →
            name = "__resolveType" ∧ e.content = .morphRule)
      ∧ ∀ type name e, lastGiven fragments type name = none →
          Assoc.get? (s.resolvers.fieldsOf type) name = some e →
          IsMorphRule s type name e
            ∨ (ofFragments registry fragments visibility config).IsRegistryRule type name e := by
  refine ⟨⟨fun hwins => ?_, fun hmorph type name e hgiven => ?_⟩,
    fun type name e hnone hfound => ?_⟩
  · by_cases hmembers : s.morph = []
    · exact Or.inl hmembers
    · refine Or.inr fun name e hgiven => ?_
      have hentry := hwins _ name e hgiven
      rw [get?_resolvers h, if_pos ⟨hmembers, BEq.rfl⟩] at hentry
      by_cases hname : name = "__resolveType"
      · rw [if_pos hname] at hentry
        exact ⟨hname, (Option.some.inj hentry).symm⟩
      · rw [if_neg hname] at hentry
        cases hentry
  · obtain ⟨generated, hmerged, _⟩ := get?_fieldsOf_merged hfragments h type name
    rw [get?_resolvers h]
    split
    · next htype =>
        obtain hmembers | hrule := hmorph
        · exact absurd hmembers htype.1
        · obtain ⟨hname, hcontent⟩ := hrule name e
            ((Fragment.lastGiven_congr htype.2 fragments name).trans hgiven)
          rw [if_pos hname, hcontent]
          rfl
    · rw [hmerged, hgiven]
      rfl
  · obtain ⟨generated, hmerged, hrules⟩ := get?_fieldsOf_merged hfragments h type name
    rw [get?_resolvers h] at hfound
    split at hfound
    · next htype =>
        by_cases hname : name = "__resolveType"
        · rw [if_pos hname] at hfound
          exact Or.inl ⟨htype.1, htype.2, hname, (Option.some.inj hfound).symm⟩
        · rw [if_neg hname] at hfound
          cases hfound
    · rw [hmerged, hnone] at hfound
      exact Or.inr (hrules e hfound)

/-- A registry of a component and of pages with a dynamic zone of it. -/
def zonedRegistry : Registry :=
  { components := [(.ofText "hero",
      { name := .str "hero", globalId := .str "Hero", uid := .str "hero"
        attributes := [("title", { type := .str "string" })] })]
    models := [(.ofName "page",
      { name := .str "page", globalId := .str "Page"
        attributes := [("body", { type := .str "dynamiczone", components := [.str "hero"] })] })] }

/-- A fragment with its own type rule for the zone of pages, and a lookup of
pages. -/
def zoneFragments : List Fragment :=
  [{ resolver := [
      (.ofText "PageBodyDynamicZone",
        .entries [("__resolveType", Fragment.resolverEntry "pick" 0)]),
      (.ofText "Query", .entries [("page", Fragment.resolverEntry "find" 0)])] }]

/-- A fragment with its own type rule for the union of object types. -/
def morphFragments : List Fragment :=
  [{ resolver := [(.ofText "Morph",
      .entries [("__resolveType", Fragment.resolverEntry "pick" 0)])] }]

theorem resolveByMaps_zoneFragments : ResolveByMaps zoneFragments := by
  intro f hf
  cases List.mem_singleton.1 hf
  refine ⟨fun e he => ?_, by unfold Assoc.Distinct; decide, fun e he => ?_⟩
  all_goals
    rcases List.mem_cons.1 he with rfl | he
    · first | trivial | exact List.pairwise_singleton _ _
    · cases List.mem_singleton.1 he
      first | trivial | exact List.pairwise_singleton _ _

/-- Both contributed resolvers are in the schema, the one of the zone in
place of the generated rule. -/
theorem resolvers_given_zone :
    ∃ s q, (ofFragments zonedRegistry zoneFragments none {}).build.Yields {} s q ∧ s.morph ≠ []
      ∧ ∀ type name e, lastGiven zoneFragments type name = some e →
        (Assoc.get? (s.resolvers.fieldsOf type) name).map Entry.content = some e.content := by
  obtain ⟨s, q, h⟩ := Work.exists_yields
    (w := (ofFragments zonedRegistry zoneFragments none {}).build) (p := {}) (by decide +kernel)
  have hmembers : ((ofFragments zonedRegistry zoneFragments none {}).build.run.run
      {}).1.toOption.any (fun s => !s.morph.isEmpty) = true := by decide +kernel
  rw [h] at hmembers
  change (!s.morph.isEmpty) = true at hmembers
  refine ⟨s, q, h, fun hnil => ?_, (resolvers_given_iff resolveByMaps_zoneFragments h).1.2 ?_⟩
  · rw [hnil] at hmembers
    cases hmembers
  · exact Or.inr fun name e hgiven => (by cases hgiven)

/-- A contributed rule for the union of object types is lost. -/
theorem morph_rule_lost :
    ResolveByMaps morphFragments
      ∧ lastGiven morphFragments (.ofText "Morph") "__resolveType"
          = some (Fragment.resolverEntry "pick" 0)
      ∧ ∃ s q, (ofFragments zonedRegistry morphFragments none {}).build.Yields {} s q
        ∧ Assoc.get? (s.resolvers.fieldsOf (.ofText "Morph")) "__resolveType"
          = some ⟨.morphRule, none⟩ := by
  refine ⟨fun f hf => ?_, rfl, ?_⟩
  · cases List.mem_singleton.1 hf
    refine ⟨fun e he => ?_, List.pairwise_singleton _ _, fun e he => ?_⟩
    · cases List.mem_singleton.1 he
      trivial
    · cases List.mem_singleton.1 he
      exact List.pairwise_singleton _ _
  · obtain ⟨s, q, h⟩ := Work.exists_yields
      (w := (ofFragments zonedRegistry morphFragments none {}).build) (p := {})
      (by decide +kernel)
    have hrule : ((ofFragments zonedRegistry morphFragments none {}).build.run.run
        {}).1.toOption.bind (fun s =>
          Assoc.get? (s.resolvers.fieldsOf (.ofText "Morph")) "__resolveType")
        = some ⟨.morphRule, none⟩ := by decide +kernel
    rw [h] at hrule
    exact ⟨s, q, h, hrule⟩

end Compiler

end ModelSchema
