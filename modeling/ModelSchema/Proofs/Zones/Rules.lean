/-
The types and the type rules of dynamic zones. A registry keeps the
components that it took under their uids, and no two of them have one
global id (`uid_eq_of_globalId`), so the union of a zone names every
component that is declared once, where it is declared first
(`Row.Describes`). The rule of the zone knows the same components, and so
it answers with the members of this union and with nothing else
(`Row.Picks`). A zone that declares something else than the uids of
components is refused for the first of these (`failure?_row`).
-/
import ModelSchema.Proofs.Outline.Schema
import ModelSchema.Proofs.Registry.GlobalIds

namespace ModelSchema

-- ============================================================= components

namespace Registry

/-- Why a registry has no component of a uid, if it has none. -/
def refusal? (r : Registry) (uid : Value) : Option Fault :=
  match uid.key with
  | .error f => some f
  | .ok key =>
      if (Assoc.get? r.components key).isSome then none else some (.unknownModel uid .null)

theorem failure?_getComponent (r : Registry) (uid : Value) :
    failure? (r.getComponent uid) = r.refusal? uid := by
  rw [getComponent_eq]
  unfold refusal?
  cases uid.key with
  | error f => rfl
  | ok key =>
      show failure? ((Assoc.get? r.components key).elim _ _) = if _ then _ else _
      cases Assoc.get? r.components key <;> rfl

variable {os : List Offer} {uid uid' : Value} {component component' : Model}

/-- A component that is found is that of an offer that was taken under its
uid, which is a text. -/
theorem exists_offer_of_getComponent (h : (run os).getComponent uid = .ok component) :
    ∃ o ∈ taken os, ∃ text, uid = .str text ∧ o.place = .component text
      ∧ component.globalId = .str o.globalId := by
  rw [getComponent_eq] at h
  obtain ⟨key, hkey, h⟩ := bind_eq_ok.1 h
  cases hfound : Assoc.get? (run os).components key with
  | none =>
      rw [hfound] at h
      cases h
  | some found =>
      rw [hfound] at h
      cases h
      obtain ⟨key', hmem, hsame⟩ := Assoc.mem_of_get?_eq_some hfound
      rw [run_eq_ofLog] at hmem
      obtain ⟨o, ho, text, hplace, htext, hid⟩ := exists_offer_of_mem keepsPlaces_component hmem
      have huid : (key == Key.ofText text) = true :=
        BEq.symm (PartialEquivBEq.trans htext hsame)
      rw [Key.beq_ofText_iff, Value.value_of_key hkey] at huid
      exact ⟨o, ho, text, huid, hplace, hid⟩

/-- Components of one global id are found under one uid. -/
theorem uid_eq_of_globalId (h : (run os).getComponent uid = .ok component)
    (h' : (run os).getComponent uid' = .ok component')
    (hid : component.globalId = component'.globalId) : uid = uid' := by
  obtain ⟨o, ho, text, rfl, hplace, hgid⟩ := exists_offer_of_getComponent h
  obtain ⟨o', ho', text', rfl, hplace', hgid'⟩ := exists_offer_of_getComponent h'
  have hlabel : o.label = o'.label := by
    by_contra hne
    rw [hgid, hgid', Value.str.injEq] at hid
    exact coherent_taken os o' ho' ⟨o, ho, hid, hne⟩
  unfold Offer.label at hlabel
  rw [hplace, hplace'] at hlabel
  cases Place.labelsApart_plain (.component text) (.component text') trivial trivial hlabel
  rfl

end Registry

namespace Zones

open Registry (run)

-- ================================================================ members

/-- A declared component: the key of its uid, and its global id. -/
def declared (r : Registry) (uid : Value) : Except Fault (Key × Value) :=
  uid.key >>= fun key => (fun component => (key, component.globalId)) <$> r.getComponent uid

theorem members_eq (r : Registry) (uids : List Value) :
    members r uids = Assoc.ofPairs <$> uids.mapM (declared r) := by
  unfold members declared
  simp only [bind_pure_comp]

theorem failure?_declared (r : Registry) (uid : Value) :
    failure? (declared r uid) = r.refusal? uid := by
  rw [← Registry.failure?_getComponent]
  unfold declared
  cases hkey : uid.key with
  | error f =>
      rw [Registry.getComponent_eq, hkey]
      rfl
  | ok key => exact failure?_map _ _

variable {os : List Registry.Offer} {uids : List Value} {found : List (Key × Value)}

/-- What is declared in a registry is declared by texts. -/
theorem exists_texts {pairs : List (Key × Value)}
    (h : List.Forall₂ (fun uid e => declared (run os) uid = .ok e) uids pairs) :
    ∃ texts : List String, uids = texts.map Value.str
      ∧ pairs.map Prod.fst = texts.map Key.ofText := by
  induction h with
  | nil => exact ⟨[], rfl, rfl⟩
  | cons hhead _ ih =>
      obtain ⟨texts, rfl, hkeys⟩ := ih
      obtain ⟨key, hkey, hfound⟩ := bind_eq_ok.1 hhead
      obtain ⟨component, hcomponent, rfl⟩ := map_eq_ok.1 hfound
      obtain ⟨_, _, text, rfl, _⟩ := Registry.exists_offer_of_getComponent hcomponent
      cases hkey
      exact ⟨text :: texts, rfl, congrArg (Key.ofText text :: ·) hkeys⟩

/-- The components of a zone stand under the uids that are declared, each
where it comes first. -/
theorem uids_members (h : members (run os) uids = .ok found) :
    found.map (fun e => e.1.value) = uids.eraseDups := by
  rw [members_eq] at h
  obtain ⟨pairs, hpairs, rfl⟩ := map_eq_ok.1 h
  obtain ⟨texts, rfl, hkeys⟩ := exists_texts (mapM_eq_ok.1 hpairs)
  have hstr : ∀ s t : String, (Value.str s == Value.str t) = (s == t) := by
    intro s t
    rw [Bool.eq_iff_iff, beq_iff_eq, beq_iff_eq, Value.str.injEq]
  rw [Morph.eraseDups_map hstr]
  show (Assoc.ofPairs pairs).map (Key.value ∘ Prod.fst) = _
  rw [← List.map_map, Assoc.keys_ofPairs, hkeys, Morph.eraseDups_map Key.ofText_beq, List.map_map]
  rfl

/-- Each component of a zone is that of its uid. -/
theorem component_of_mem (h : members (run os) uids = .ok found) {e : Key × Value}
    (he : e ∈ found) :
    ∃ component, (run os).getComponent e.1.value = .ok component ∧ component.globalId = e.2 := by
  rw [members_eq] at h
  obtain ⟨pairs, hpairs, rfl⟩ := map_eq_ok.1 h
  obtain ⟨e', he', hsame, hvalue⟩ := Assoc.exists_of_mem_ofPairs _ he
  obtain ⟨uid, _, hdeclared⟩ := mem_of_mem_mapM hpairs he'
  obtain ⟨key, hkey, hfound⟩ := bind_eq_ok.1 hdeclared
  obtain ⟨component, hcomponent, rfl⟩ := map_eq_ok.1 hfound
  obtain ⟨_, _, text, rfl, _⟩ := Registry.exists_offer_of_getComponent hcomponent
  cases hkey
  rw [(Key.beq_ofText_iff _ _).1 (BEq.symm hsame)]
  exact ⟨component, hcomponent, hvalue⟩

theorem memberName_eq_ok_iff {e : Key × Value} {member : Key × String} :
    memberName e = .ok member ↔ e = (member.1, .str member.2) := by
  obtain ⟨key, name⟩ := member
  constructor
  · intro h
    unfold memberName at h
    split at h
    · cases h
      rfl
    · cases h
  · rintro rfl
    rfl

/-- Components are named by the texts that their global ids are. -/
theorem mapM_memberName_eq_ok_iff {named : List (Key × String)} :
    found.mapM memberName = .ok named ↔ found = named.map fun e => (e.1, .str e.2) := by
  rw [mapM_eq_ok]
  constructor
  · intro h
    induction h with
    | nil => rfl
    | cons hhead _ ih => rw [memberName_eq_ok_iff.1 hhead, ih, List.map_cons]
  · rintro rfl
    rw [List.forall₂_map_left_iff, List.forall₂_same]
    exact fun e _ => memberName_eq_ok_iff.2 rfl

/-- In a registry all components of a zone can be named. -/
theorem failure?_memberNames (h : members (run os) uids = .ok found) :
    failure? (found.mapM memberName) = none := by
  rw [failure?_mapM, List.findSome?_eq_none_iff]
  intro e he
  obtain ⟨component, hcomponent, hid⟩ := component_of_mem h he
  obtain ⟨o, _, _, _, _, hgid⟩ := Registry.exists_offer_of_getComponent hcomponent
  rw [hgid] at hid
  obtain ⟨key, name⟩ := e
  cases hid
  rfl

/-- A zone is refused for the first uid that it declares and that the
registry has no component of. -/
theorem failure?_row (globalId : Value) (zone : String × Attribute) :
    failure? (row (run os) globalId zone) = zone.2.components.findSome? (run os).refusal? := by
  unfold row
  rw [failure?_map, failure?_bind fun found h => failure?_memberNames h, members_eq, failure?_map,
    failure?_mapM]
  exact congrArg (List.findSome? · _) (funext (failure?_declared (run os)))

-- =================================================================== rules

/-- Whether a value carries a uid: it is a map that has the uid under
`__component`, or an object with attributes that has it there. -/
inductive Carries : Value → Value → Prop where
  | map {entries : List (String × Value)} {uid : Value}
      (h : Assoc.get? entries "__component" = some uid) : Carries (.map entries) uid
  | record {identity : Nat} {fields : List (String × Value)} {uid : Value}
      (h : Assoc.get? fields "__component" = some uid) : Carries (.record identity fields) uid

section

variable {named : List (Key × String)} {v uid : Value}

/-- A value that carries a uid is of the type of its component. -/
theorem zoneType_of_carries (h : Carries v uid) :
    Content.zoneType named v
      = if uid.isGiven then (fun key => (Assoc.get? named key).elim .null .str) <$> uid.key
        else .ok .null := by
  have hread {entries : List (String × Value)}
      (h : Assoc.get? entries "__component" = some uid) :
      Value.getD entries "__component" = uid := by
    rw [Value.getD, h, Option.getD_some]
  unfold Content.zoneType
  cases h with
  | map h | record h =>
      dsimp only
      rw [hread h, bind_pure_comp]
      rfl

/-- A value that carries no uid is of no type. -/
theorem zoneType_of_not_carries (h : ∀ uid, ¬Carries v uid) :
    Content.zoneType named v = .ok .null := by
  have hread {entries : List (String × Value)}
      (h : ∀ uid, Assoc.get? entries "__component" ≠ some uid) :
      Value.getD entries "__component" = .null := by
    rw [Value.getD, Option.eq_none_iff_forall_ne_some.2 h, Option.getD_none]
  unfold Content.zoneType
  cases v with
  | map entries =>
      dsimp only
      rw [hread fun uid hget => h uid (.map hget)]
      rfl
  | record identity fields =>
      dsimp only
      rw [hread fun uid hget => h uid (.record hget)]
      rfl
  | _ => rfl

/-- The type that a rule answers with is one of those that it knows. -/
theorem zoneType_eq_ok {type : Value} (h : Content.zoneType named v = .ok type) :
    type = .null ∨ ∃ name ∈ named.map Prod.snd, type = .str name := by
  by_cases hcarries : ∃ uid, Carries v uid
  · obtain ⟨uid, hcarries⟩ := hcarries
    rw [zoneType_of_carries hcarries] at h
    split at h
    · obtain ⟨key, _, rfl⟩ := map_eq_ok.1 h
      cases hfound : Assoc.get? named key with
      | none => exact Or.inl rfl
      | some name =>
          obtain ⟨_, hmem, _⟩ := Assoc.mem_of_get?_eq_some hfound
          exact Or.inr ⟨name, List.mem_map_of_mem hmem, rfl⟩
    · cases h
      exact Or.inl rfl
  · rw [zoneType_of_not_carries fun uid hv => hcarries ⟨uid, hv⟩] at h
    cases h
    exact Or.inl rfl

end

-- =================================================================== rows

namespace Row

/-- What the row of a zone says of the zone: it has its name; its components
are those that the zone declares, each once, where it is declared first;
and each of them is named by its global id, no two alike. -/
structure Describes (r : Registry) (globalId : Value) (zone : String × Attribute) (row : Row) :
    Prop where
  name : row.name = Attribute.zoneName globalId zone.1
  uids : row.members.map (fun e => e.1.value) = zone.2.components.eraseDups
  ids : ∀ e ∈ row.members, ∃ component, r.getComponent e.1.value = .ok component
    ∧ component.globalId = .str e.2
  distinct : (row.members.map Prod.snd).Nodup
  empty : row.members.isEmpty = zone.2.components.isEmpty

/-- How the rule of a zone answers: a uid that the zone declares with the
global id of its component, unless the uid is the empty text; any other
key, and where there is no uid, with null. So it answers with members of
the union only, and with each of them that has a uid. -/
structure Picks (r : Registry) (zone : String × Attribute) (row : Row) : Prop where
  declared : ∀ v uid component, Carries v uid → uid ∈ zone.2.components → uid.isGiven = true →
    r.getComponent uid = .ok component → row.rule.call v = .ok component.globalId
  other : ∀ v uid, Carries v uid → uid.isKey = true →
    ¬(uid ∈ zone.2.components ∧ uid.isGiven = true) → row.rule.call v = .ok .null
  bare : ∀ v, (∀ uid, ¬Carries v uid) → row.rule.call v = .ok .null
  results : ∀ v type, row.rule.call v = .ok type →
    type = .null ∨ ∃ name ∈ row.members.map Prod.snd, type = .str name
  reached : ∀ e ∈ row.members, e.1.value.isGiven = true →
    ∃ v, row.rule.call v = .ok (.str e.2)

variable {globalId : Value} {zone : String × Attribute} {row : Row}

/-- The uids of a row are different keys. -/
theorem distinct_members {r : Registry} (h : Zones.row r globalId zone = .ok row) :
    Assoc.Distinct row.members := by
  obtain ⟨named, hrow, rfl⟩ := map_eq_ok.1 h
  obtain ⟨found, hfound, hnamed⟩ := bind_eq_ok.1 hrow
  rw [members_eq] at hfound
  obtain ⟨pairs, _, rfl⟩ := map_eq_ok.1 hfound
  have hdistinct := Assoc.distinct_ofPairs pairs
  unfold Assoc.Distinct at hdistinct ⊢
  rwa [mapM_memberName_eq_ok_iff.1 hnamed, List.map_map] at hdistinct

/-- The row of a zone describes it. -/
theorem describes (h : Zones.row (run os) globalId zone = .ok row) :
    row.Describes (run os) globalId zone := by
  obtain ⟨named, hrow, rfl⟩ := map_eq_ok.1 h
  obtain ⟨found, hfound, hnamed⟩ := bind_eq_ok.1 hrow
  rw [mapM_memberName_eq_ok_iff] at hnamed
  subst hnamed
  have uids : named.map (fun e => e.1.value) = zone.2.components.eraseDups := by
    rw [← uids_members hfound, List.map_map]
    rfl
  have ids : ∀ e ∈ named, ∃ component, (run os).getComponent e.1.value = .ok component
      ∧ component.globalId = .str e.2 := by
    intro e he
    exact component_of_mem (e := (e.1, Value.str e.2)) hfound (List.mem_map_of_mem he)
  refine ⟨rfl, uids, ids, ?_, ?_⟩
  · have hdifferent : (named.map fun e => e.1.value).Nodup := uids ▸ Morph.nodup_eraseDups _
    rw [List.Nodup, List.pairwise_map] at hdifferent
    refine List.pairwise_map.2 (hdifferent.imp_of_mem fun {e e'} he he' hne hsame => hne ?_)
    obtain ⟨component, hcomponent, hid⟩ := ids e he
    obtain ⟨component', hcomponent', hid'⟩ := ids e' he'
    refine Registry.uid_eq_of_globalId hcomponent hcomponent' ?_
    rw [hid, hid', hsame]
  · have hempty := congrArg List.isEmpty uids
    rw [List.isEmpty_map] at hempty
    refine hempty.trans ?_
    cases zone.2.components with
    | nil => rfl
    | cons uid rest => rw [List.eraseDups_cons]; rfl

theorem Describes.mem_uids_iff (h : row.Describes (run os) globalId zone) {uid : Value} :
    uid ∈ zone.2.components ↔ ∃ e ∈ row.members, e.1.value = uid := by
  rw [← List.mem_eraseDups, ← h.uids, List.mem_map]

/-- A member with a uid is the type of a value that carries it. -/
theorem call_of_mem (h : Assoc.Distinct row.members) {e : Key × String} (he : e ∈ row.members)
    {v : Value} (hv : Carries v e.1.value) (hgiven : e.1.value.isGiven = true) :
    row.rule.call v = .ok (.str e.2) := by
  show Content.zoneType row.members v = _
  rw [zoneType_of_carries hv, if_pos hgiven, Value.key_value]
  show Except.ok ((Assoc.get? row.members e.1).elim _ _) = _
  rw [Assoc.get?_of_mem h he]
  rfl

/-- The rule of a zone picks among the components of the zone. -/
theorem picks (h : Zones.row (run os) globalId zone = .ok row) : row.Picks (run os) zone := by
  have hdistinct := distinct_members h
  have hdescribes := describes h
  refine ⟨?_, ?_, fun v hv => zoneType_of_not_carries hv, fun v type => zoneType_eq_ok, ?_⟩
  · intro v uid component hv huid hgiven hcomponent
    obtain ⟨e, he, rfl⟩ := hdescribes.mem_uids_iff.1 huid
    obtain ⟨component', hcomponent', hid⟩ := hdescribes.ids e he
    rw [hcomponent] at hcomponent'
    cases hcomponent'
    rw [hid]
    exact call_of_mem hdistinct he hv hgiven
  · intro v uid hv hkey hother
    show Content.zoneType row.members v = _
    rw [zoneType_of_carries hv]
    split
    · next hgiven =>
        rw [Value.key_of_isKey hkey]
        show Except.ok ((Assoc.get? row.members _).elim _ _) = _
        cases hfound : Assoc.get? row.members ⟨uid, hkey⟩ with
        | none => rfl
        | some name =>
            -- a key that is the same as a text is that text, and so it is declared
            obtain ⟨key, hmem, hsame⟩ := Assoc.mem_of_get?_eq_some hfound
            obtain ⟨component, hcomponent, _⟩ := hdescribes.ids _ hmem
            obtain ⟨_, _, text, htext, _⟩ := Registry.exists_offer_of_getComponent hcomponent
            have hname : uid = .str text := Key.value_eq_of_beq hsame htext
            have hdeclared : uid ∈ zone.2.components :=
              hdescribes.mem_uids_iff.2 ⟨_, hmem, htext.trans hname.symm⟩
            exact absurd ⟨hdeclared, hgiven⟩ hother
    · rfl
  · intro e he hgiven
    refine ⟨.map [("__component", e.1.value)], call_of_mem hdistinct he (.map ?_) hgiven⟩
    rfl

end Row

end Zones

-- ================================================================= models

namespace Compiler

open Zones (Row)

/-- The names of the unions of the exposed dynamic zones of a model. -/
def unionNames (c : Compiler) (m : Model) : List String :=
  (c.exposedOf .dynamicZone m).map fun zone => Attribute.zoneName m.globalId zone.1

variable {c : Compiler} {os : List Registry.Offer}

/-- The rows of zones are named as their unions are. -/
theorem map_name_rows {m : Model} {rows : List Row}
    (h : (c.exposedOf .dynamicZone m).mapM (Zones.row c.registry m.globalId) = .ok rows) :
    rows.map Row.name = c.unionNames m := by
  unfold unionNames
  generalize c.exposedOf .dynamicZone m = zones at h
  rw [mapM_eq_ok] at h
  induction h with
  | nil => rfl
  | cons hrow _ ih =>
      obtain ⟨_, _, rfl⟩ := map_eq_ok.1 hrow
      exact congrArg (_ :: ·) ih

/-- Dynamic zones whose unions have different names leave the types and the
rules of their rows, in order, and nothing else. -/
theorem dynamicZones_eq_ok_iff {m : Model} (h : (c.unionNames m).Nodup) {zones : Zones} :
    c.dynamicZones m = .ok zones
      ↔ ∃ rows, (c.exposedOf .dynamicZone m).mapM (Zones.row c.registry m.globalId) = .ok rows
        ∧ zones = { definitions := rows.flatMap Row.texts
                    resolvers := rows.filterMap Row.resolver? } := by
  rw [dynamicZones_eq, map_eq_ok]
  refine exists_congr fun rows => and_congr_right fun hrows => ?_
  have hdistinct : Assoc.Distinct (rows.filterMap Row.resolver?) := by
    refine Zones.distinct_resolvers ?_
    rwa [map_name_rows hrows]
  rw [Zones.foldl_place, List.nil_append, Assoc.putAll_nil_left hdistinct]
  exact eq_comm

/-- The dynamic zones of a model are refused for the first uid that one of
them declares and that the registry has no component of. -/
theorem failure?_dynamicZones (hr : c.registry = Registry.run os) (m : Model) :
    failure? (c.dynamicZones m)
      = ((c.exposedOf .dynamicZone m).flatMap fun zone => zone.2.components).findSome?
          c.registry.refusal? := by
  rw [dynamicZones_eq, failure?_map, failure?_mapM, hr, findSome?_flatMap]
  exact congrArg (List.findSome? · _) (funext (Zones.failure?_row m.globalId))

/-- What a model's dynamic zones come to in a registry that offers have led
to, if their unions have different names. They are refused for the first
uid without a component, as an unknown one if it may be a uid. Otherwise
each zone has a row of its own, that describes it and picks among its
components; the types are those of the rows, and the rules are those of
the rows with components. -/
theorem dynamicZones_agree (hr : c.registry = Registry.run os) (m : Model)
    (hnames : (c.unionNames m).Nodup) :
    (∀ zones, c.dynamicZones m = .ok zones →
        ∃ rows, List.Forall₂
            (fun zone row => Row.Describes c.registry m.globalId zone row
              ∧ Row.Picks c.registry zone row)
            (c.exposedOf .dynamicZone m) rows
          ∧ zones.definitions = rows.flatMap Row.texts
          ∧ zones.resolvers = rows.filterMap Row.resolver?)
      ∧ ∀ f, c.dynamicZones m = .error f
          ↔ ((c.exposedOf .dynamicZone m).flatMap fun zone => zone.2.components).findSome?
              c.registry.refusal? = some f := by
  refine ⟨fun zones h => ?_, fun f => ?_⟩
  · obtain ⟨rows, hrows, rfl⟩ := (dynamicZones_eq_ok_iff hnames).1 h
    rw [hr] at hrows ⊢
    exact ⟨rows, (mapM_eq_ok.1 hrows).imp fun _ _ h => ⟨Row.describes h, Row.picks h⟩, rfl, rfl⟩
  · rw [← failure?_dynamicZones hr, failure?_eq_some_iff]

/-- A page with a zone of two components, one of which is declared twice,
and with a zone of none. -/
def zonedPage : Model :=
  { name := .str "page", globalId := .str "Page"
    attributes :=
      [("body", { type := .str "dynamiczone"
                  components := [.str "hero", .str "quote", .str "hero"] }),
       ("footer", { type := .str "dynamiczone" })] }

/-- The page and its components, for a registry. -/
def zonedOffers : List Registry.Offer :=
  [.component none "hero" "Hero" default, .component (some "quote") "text" "Quote" default,
   .model none "page" "Page" zonedPage]

/-- The compiler of the registry that took them. -/
def zonedCompiler : Compiler := ofRegistry (Registry.run zonedOffers) none {}

theorem dynamicZones_agree_zonedPage :
    zonedCompiler.registry = Registry.run zonedOffers
      ∧ (zonedCompiler.unionNames zonedPage).Nodup
      ∧ ∃ zones, zonedCompiler.dynamicZones zonedPage = .ok zones
        ∧ zones.definitions
            = ["union PageBodyDynamicZone = Hero | Quote", "scalar PageBodyDynamicZoneInput",
               "scalar PageFooterDynamicZone", "scalar PageFooterDynamicZoneInput"]
        ∧ ∃ rows, List.Forall₂
            (fun zone row => Row.Describes zonedCompiler.registry zonedPage.globalId zone row
              ∧ Row.Picks zonedCompiler.registry zone row)
            (zonedCompiler.exposedOf .dynamicZone zonedPage) rows
          ∧ zones.definitions = rows.flatMap Row.texts
          ∧ zones.resolvers = rows.filterMap Row.resolver? := by
  have hnames : (zonedCompiler.unionNames zonedPage).Nodup := by decide +kernel
  have hdefinitions : (zonedCompiler.dynamicZones zonedPage).toOption.map Zones.definitions
      = some ["union PageBodyDynamicZone = Hero | Quote", "scalar PageBodyDynamicZoneInput",
        "scalar PageFooterDynamicZone", "scalar PageFooterDynamicZoneInput"] := by
    decide +kernel
  obtain ⟨hrows, _⟩ := dynamicZones_agree (c := zonedCompiler) rfl zonedPage hnames
  cases hzones : zonedCompiler.dynamicZones zonedPage with
  | error f =>
      rw [hzones] at hdefinitions
      cases hdefinitions
  | ok zones =>
      rw [hzones] at hdefinitions
      exact ⟨rfl, hnames, zones, rfl, Option.some.inj hdefinitions, hrows zones hzones⟩

end Compiler

end ModelSchema
