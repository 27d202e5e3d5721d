/-
When global ids are unique. A registry keeps entries by their places and
global ids by labels, and a label is a text made of a place. So entries
that have one global id have one label (`Coherent`), and they are one
entry as long as labels tell places apart. They do for plain places; not
for all, and two places with one label are enough for two entries with one
global id.
-/
import ModelSchema.Proofs.Registry.Log

namespace ModelSchema

namespace Registry

/-- The global ids of all entries, in order. -/
def globalIds (r : Registry) : List Value :=
  (r.models.map Prod.snd ++ r.components.map Prod.snd).map Model.globalId

/-- Whether the places of a kind are told apart by their labels. -/
def LabelsApart (P : Place → Prop) : Prop := ∀ p q, P p → P q → p.label = q.label → p = q

-- =========================================================== plain places

namespace Place

/-- A place whose label can be read: the names of application models and of
plugins hold no colon, and no plugin is nameless or called as components
are. -/
def Plain : Place → Prop
  | .model none name => ':' ∉ name.toList
  | .model (some plugin) _ => ':' ∉ plugin.toList ∧ plugin ≠ "" ∧ plugin ≠ "component"
  | .component _ => True

/-- What a label has before its first colon. -/
def heading : Place → List Char
  | .model none name => name.toList
  | .model (some plugin) _ => plugin.toList
  | .component _ => "component".toList

/-- What a label has from its first colon on. -/
def trailing : Place → List Char
  | .model none _ => []
  | .model (some _) name => ':' :: ':' :: name.toList
  | .component uid => ':' :: ':' :: uid.toList

variable {p q : Place}

theorem colon_not_mem_heading (h : p.Plain) : ':' ∉ p.heading := by
  match p, h with
  | .model none name, h => exact h
  | .model (some plugin) name, h => exact h.1
  | .component uid, _ =>
      show ':' ∉ "component".toList
      decide

theorem toList_label (h : p.Plain) : p.label.toList = p.heading ++ p.trailing := by
  match p, h with
  | .model none name, _ =>
      show name.toList = name.toList ++ []
      rw [List.append_nil]
  | .model (some plugin) name, h =>
      show (if plugin = "" then name else plugin ++ "::" ++ name).toList = _
      rw [if_neg h.2.1, String.toList_append, String.toList_append, List.append_assoc]
      rfl
  | .component uid, _ =>
      show ("component::" ++ uid).toList = _
      rw [String.toList_append]
      rfl

/-- The label of a plain place is parted at its first colon. -/
theorem parts_label (h : p.Plain) :
    p.label.toList.takeWhile (· ≠ ':') = p.heading
      ∧ p.label.toList.dropWhile (· ≠ ':') = p.trailing := by
  have hheading : ∀ c ∈ p.heading, decide (c ≠ ':') = true := by
    intro c hc
    refine decide_eq_true fun hcolon => colon_not_mem_heading h ?_
    rwa [← hcolon]
  have htrailing : p.trailing.takeWhile (· ≠ ':') = []
      ∧ p.trailing.dropWhile (· ≠ ':') = p.trailing := by
    match p with
    | .model none name => exact ⟨rfl, rfl⟩
    | .model (some plugin) name => exact ⟨rfl, rfl⟩
    | .component uid => exact ⟨rfl, rfl⟩
  rw [toList_label h, List.takeWhile_append_of_pos hheading,
    List.dropWhile_append_of_pos hheading, htrailing.1, htrailing.2, List.append_nil]
  exact ⟨rfl, rfl⟩

/-- A plain place is known by the two parts of its label. -/
theorem eq_of_parts (hp : p.Plain) (hq : q.Plain) (hheading : p.heading = q.heading)
    (htrailing : p.trailing = q.trailing) : p = q := by
  have hnames : ∀ {s t : String}, ':' :: ':' :: s.toList = ':' :: ':' :: t.toList → s = t := by
    intro s t h
    simpa [String.toList_inj] using h
  match p, q, hp, hq with
  | .model none name, .model none name', _, _ => rw [String.toList_inj.1 hheading]
  | .model (some plugin) name, .model (some plugin') name', _, _ =>
      rw [String.toList_inj.1 hheading, hnames htrailing]
  | .component uid, .component uid', _, _ => rw [hnames htrailing]
  | .model (some plugin) name, .component uid, hp, _ =>
      exact absurd (String.toList_inj.1 hheading) hp.2.2
  | .component uid, .model (some plugin) name, _, hq =>
      exact absurd (String.toList_inj.1 hheading).symm hq.2.2
  | .model none name, .model (some plugin) name', _, _ => cases htrailing
  | .model (some plugin) name, .model none name', _, _ => cases htrailing
  | .model none name, .component uid, _, _ => cases htrailing
  | .component uid, .model none name, _, _ => cases htrailing

/-- Plain places are told apart by their labels. -/
theorem labelsApart_plain : LabelsApart Plain := by
  intro p q hp hq hlabel
  obtain ⟨hheading, htrailing⟩ := parts_label hp
  rw [hlabel, (parts_label hq).1] at hheading
  rw [hlabel, (parts_label hq).2] at htrailing
  exact eq_of_parts hp hq hheading.symm htrailing.symm

end Place

-- ================================================== entries of an offer

/-- In a coherent log whose places are told apart, a global id is that of
one place. -/
theorem place_eq_of_globalId {P : Place → Prop} {log : List Offer} (hcoherent : Coherent log)
    (hplaces : ∀ o ∈ log, P o.place) (hapart : LabelsApart P) {o o' : Offer} (ho : o ∈ log)
    (ho' : o' ∈ log) {v : Value} (hid : v = .str o.globalId) (hid' : v = .str o'.globalId) :
    o.place = o'.place := by
  refine hapart _ _ (hplaces o ho) (hplaces o' ho') ?_
  by_contra hlabel
  rw [hid, Value.str.injEq] at hid'
  exact hcoherent o' ho' ⟨o, ho, hid', hlabel⟩

/-- What is kept of offers is kept at their places and has their global
ids. -/
def KeepsPlaces {κ : Type} (kept? : Offer → Option (κ × Model)) (place : κ → Place) : Prop :=
  ∀ o k m, kept? o = some (k, m) → o.place = place k ∧ m.globalId = .str o.globalId

theorem keepsPlaces_model : KeepsPlaces Offer.model? fun k => .model k.1 k.2 := by
  intro o k m h
  cases o with
  | model plugin name globalId rest =>
      cases h
      exact ⟨rfl, rfl⟩
  | component => cases h

theorem keepsPlaces_component : KeepsPlaces Offer.component? .component := by
  intro o k m h
  cases o with
  | model => cases h
  | component uid name globalId rest =>
      cases h
      exact ⟨rfl, rfl⟩

section

variable {κ κ' : Type} [BEq κ'] [EquivBEq κ'] {key : κ → κ'} {place : κ → Place}
  {kept? : Offer → Option (κ × Model)} {P : Place → Prop} {log : List Offer}

/-- An entry that a log tells of is that of an offer of the log. -/
theorem exists_offer_of_mem (hkept : KeepsPlaces kept? place) {e : κ' × Model}
    (he : e ∈ Assoc.ofPairs ((log.filterMap kept?).map fun e => (key e.1, e.2))) :
    ∃ o ∈ log, ∃ k, o.place = place k ∧ (key k == e.1) = true
      ∧ e.2.globalId = .str o.globalId := by
  obtain ⟨_, hpair, hkey, hentry⟩ := Assoc.exists_of_mem_ofPairs _ he
  obtain ⟨⟨k, m⟩, hmem, rfl⟩ := List.mem_map.1 hpair
  obtain ⟨o, ho, hoffer⟩ := List.mem_filterMap.1 hmem
  obtain ⟨hplace, hid⟩ := hkept o k m hoffer
  exact ⟨o, ho, k, hplace, hkey, (congrArg Model.globalId hentry).symm.trans hid⟩

/-- Entries of one kind have different global ids. -/
theorem nodup_globalIds_ofPairs (hcoherent : Coherent log) (hplaces : ∀ o ∈ log, P o.place)
    (hapart : LabelsApart P) (hkept : KeepsPlaces kept? place) (hplace : place.Injective) :
    ((Assoc.ofPairs ((log.filterMap kept?).map fun e => (key e.1, e.2))).map
      fun e => e.2.globalId).Nodup := by
  have hdistinct := Assoc.distinct_ofPairs ((log.filterMap kept?).map fun e => (key e.1, e.2))
  unfold Assoc.Distinct at hdistinct
  rw [List.pairwise_map] at hdistinct
  refine List.pairwise_map.2 (hdistinct.imp_of_mem fun {e e'} he he' hkeys hid => ?_)
  obtain ⟨o, ho, k, hat, hkey, hgid⟩ := exists_offer_of_mem hkept he
  obtain ⟨o', ho', k', hat', hkey', hgid'⟩ := exists_offer_of_mem hkept he'
  have hsame := place_eq_of_globalId hcoherent hplaces hapart ho ho' hgid (hid.trans hgid')
  rw [hat, hat'] at hsame
  rw [hplace hsame] at hkey
  rw [PartialEquivBEq.trans (BEq.symm hkey) hkey'] at hkeys
  cases hkeys

end

theorem nodup_globalIds_ofLog {P : Place → Prop} {log : List Offer} (hcoherent : Coherent log)
    (hplaces : ∀ o ∈ log, P o.place) (hapart : LabelsApart P) : (ofLog log).globalIds.Nodup := by
  unfold globalIds
  rw [List.map_append, List.map_map, List.map_map, List.nodup_append]
  refine ⟨?_, ?_, ?_⟩
  · refine nodup_globalIds_ofPairs hcoherent hplaces hapart keepsPlaces_model ?_
    rintro ⟨plugin, name⟩ ⟨plugin', name'⟩ ⟨⟩
    rfl
  · refine nodup_globalIds_ofPairs hcoherent hplaces hapart keepsPlaces_component ?_
    rintro uid uid' ⟨⟩
    rfl
  · rintro _ hmodel _ hcomponent rfl
    obtain ⟨e, he, hid⟩ := List.mem_map.1 hmodel
    obtain ⟨e', he', hid'⟩ := List.mem_map.1 hcomponent
    obtain ⟨o, ho, k, hat, _, hgid⟩ := exists_offer_of_mem keepsPlaces_model he
    obtain ⟨o', ho', uid, hat', _, hgid'⟩ := exists_offer_of_mem keepsPlaces_component he'
    have hsame := place_eq_of_globalId hcoherent hplaces hapart ho ho' (hid.symm.trans hgid)
      (hid'.symm.trans hgid')
    rw [hat, hat'] at hsame
    cases hsame

-- ========================================================== runs and places

theorem takenFrom_sublist (r : Registry) (os : List Offer) : (takenFrom r os).Sublist os := by
  induction os generalizing r with
  | nil => exact List.Sublist.refl _
  | cons o os ih =>
      rw [takenFrom]
      split
      · exact (ih _).cons_cons o
      · exact (ih _).cons o

/-- Offers are all taken if they and the log before them are coherent. -/
theorem takenFrom_ofLog_eq_self {log os : List Offer} (h : Coherent (log ++ os)) :
    takenFrom (ofLog log) os = os := by
  induction os generalizing log with
  | nil => rfl
  | cons o os ih =>
      have hfree : ¬Blocks log o := by
        rintro ⟨o', ho', hother⟩
        exact h o (by simp) ⟨o', List.mem_append_left _ ho', hother⟩
      rw [takenFrom, after_eq, answer_of_not_blocks hfree]
      have hrest : takenFrom (ofLog (log ++ [o])) os = os := by
        refine ih ?_
        rwa [List.append_assoc]
      exact congrArg (o :: ·) hrest

theorem taken_eq_self {os : List Offer} (h : Coherent ([] ++ os)) : taken os = os :=
  takenFrom_ofLog_eq_self h

/-- An entry of a place with a global id, and nothing else. -/
def Place.offer (globalId : String) : Place → Offer
  | .model plugin name => .model plugin name globalId default
  | .component uid => .component none uid globalId default

theorem Place.place_offer (globalId : String) (p : Place) : (p.offer globalId).place = p := by
  cases p <;> rfl

/-- A log of an entry at each of two places tells of both. -/
theorem globalIds_ofLog_pair {p q : Place} (hne : p ≠ q) (globalId : String) :
    (ofLog [p.offer globalId, q.offer globalId]).globalIds = [.str globalId, .str globalId] := by
  have hpair : ∀ {κ : Type} [BEq κ] {k k' : κ} (m m' : Model), (k == k') = false →
      Assoc.ofPairs [(k, m), (k', m')] = [(k, m), (k', m')] := by
    intro κ _ k k' m m' hk
    simp [Assoc.ofPairs, Assoc.put, hk]
  cases p with
  | model plugin name =>
      cases q with
      | model plugin' name' =>
          have hkeys : (ModelKey.ofTexts (plugin, name) == .ofTexts (plugin', name')) = false := by
            rw [ModelKey.ofTexts_beq, beq_eq_false_iff_ne]
            rintro ⟨⟩
            exact hne rfl
          show ((Assoc.ofPairs [(ModelKey.ofTexts (plugin, name), _),
            (ModelKey.ofTexts (plugin', name'), _)]).map Prod.snd ++ []).map _ = _
          rw [hpair _ _ hkeys]
          rfl
      | component uid => rfl
  | component uid =>
      cases q with
      | model plugin name => rfl
      | component uid' =>
          have hkeys : (Key.ofText uid == Key.ofText uid') = false := by
            rw [Key.ofText_beq, beq_eq_false_iff_ne]
            rintro rfl
            exact hne rfl
          show ([] ++ (Assoc.ofPairs [(Key.ofText uid, _), (Key.ofText uid', _)]).map
            Prod.snd).map _ = _
          rw [hpair _ _ hkeys]
          rfl

/-- Entries of two places with one label may have one global id. -/
theorem not_nodup_globalIds {p q : Place} (hne : p ≠ q) (hlabel : p.label = q.label)
    (globalId : String) : ¬(run [p.offer globalId, q.offer globalId]).globalIds.Nodup := by
  have hlabels : ∀ o ∈ [p.offer globalId, q.offer globalId], o.label = q.label := by
    simp [Offer.label, Place.place_offer, hlabel]
  have hcoherent : Coherent [p.offer globalId, q.offer globalId] := by
    rintro o ho ⟨o', ho', _, hother⟩
    exact hother ((hlabels o' ho').trans (hlabels o ho).symm)
  rw [run_eq_ofLog, taken_eq_self hcoherent, globalIds_ofLog_pair hne]
  simp

/-- Global ids stay unique, whatever is offered at places of a kind, exactly
if labels tell these places apart, and so they do if all of them are
plain. -/
theorem nodup_globalIds_iff (P : Place → Prop) :
    ((∀ os : List Offer, (∀ o ∈ os, P o.place) → (run os).globalIds.Nodup) ↔ LabelsApart P)
      ∧ ((∀ p, P p → p.Plain) → LabelsApart P) := by
  refine ⟨⟨fun h p q hp hq hlabel => ?_, fun hapart os hos => ?_⟩,
    fun hplain p q hp hq => Place.labelsApart_plain p q (hplain p hp) (hplain q hq)⟩
  · by_contra hne
    refine not_nodup_globalIds hne hlabel "" (h _ ?_)
    simp [Place.place_offer, hp, hq]
  · rw [run_eq_ofLog]
    refine nodup_globalIds_ofLog (coherent_taken os) (fun o ho => hos o ?_) hapart
    exact (takenFrom_sublist empty os).subset ho

/-- A model of a plugin that is called as components are and a component
share a label, and so both have one global id. -/
theorem globalIds_repeated :
    ¬(run [.model (some "component") "link" "Link" default,
        .component none "link" "Link" default]).globalIds.Nodup := by
  decide +kernel

end Registry

end ModelSchema
