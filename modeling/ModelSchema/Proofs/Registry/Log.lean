/-
Registries as logs. Models and components are offered to a registry one
after another, and each is taken or refused; what the registry holds is
told by the offers that it took, in order, and by nothing else
(`run_eq_ofLog`). An offer is refused exactly if another label has its
global id. The offers taken under one global id all have one label, since
the first of them keeps other labels out, so that it does not matter which
of them is asked.
-/
import Mathlib.Tactic.ByContra
import ModelSchema.Model.Registry
import ModelSchema.Proofs.Merge.Ordered

namespace ModelSchema

-- ========================================================= texts as keys

/-- A text that may be missing, as a value. -/
def Value.ofOption : Option String → Value
  | none => .null
  | some s => .str s

/-- A text that may be missing, as a key. -/
def Key.ofOption : Option String → Key
  | none => ⟨.null, Value.isKey_null⟩
  | some s => .ofText s

theorem Key.ofOption_beq (s t : Option String) : (ofOption s == ofOption t) = (s == t) := by
  rw [Bool.eq_iff_iff, beq_iff, beq_iff_eq]
  cases s <;> cases t <;> simp [ofOption, ofText, form, Value.keyForm]

/-- The key of a model whose plugin, if it has one, and name are texts. -/
def ModelKey.ofTexts (place : Option String × String) : ModelKey :=
  ⟨Key.ofOption place.1, Key.ofText place.2⟩

theorem ModelKey.ofTexts_beq (p q : Option String × String) :
    (ofTexts p == ofTexts q) = (p == q) := by
  show (Key.ofOption p.1 == Key.ofOption q.1 && Key.ofText p.2 == Key.ofText q.2) = _
  rw [Key.ofOption_beq, Key.ofText_beq]
  rfl

theorem ModelKey.ofValues_texts (plugin : Option String) (name : String) :
    ofValues (Value.ofOption plugin) (.str name) = .ok (ofTexts (plugin, name)) := by
  cases plugin <;> rfl

theorem Value.agrees_str (s t : String) : (Value.str s).agrees (.str t) = (s == t) := by
  simp [agrees, asInt?, same]

namespace Registry

-- ================================================================= offers

/-- Where a registry keeps an entry: a model under its plugin, if it has
one, and its name, a component under its uid. -/
inductive Place where
  | model (plugin : Option String) (name : String)
  | component (uid : String)
deriving DecidableEq

/-- The label under which the entry of a place has its global id. -/
def Place.label : Place → String
  | .model none name => name
  | .model (some plugin) name => if plugin = "" then name else plugin ++ "::" ++ name
  | .component uid => "component::" ++ uid

/-- An offer of a model or a component to a registry, all names being
texts. What the entry has besides is that of another one. -/
inductive Offer where
  | model (plugin : Option String) (name globalId : String) (rest : Model)
  | component (uid : Option String) (name globalId : String) (rest : Model)

namespace Offer

/-- The uid of a component: its name, if it has no other. -/
def uidOf (uid : Option String) (name : String) : String := (uid.filter (· ≠ "")).getD name

def globalId : Offer → String
  | .model _ _ globalId _ | .component _ _ globalId _ => globalId

def place : Offer → Place
  | .model plugin name _ _ => .model plugin name
  | .component uid name _ _ => .component (uidOf uid name)

def label (o : Offer) : String := o.place.label

/-- The model or component that is offered. -/
def entry : Offer → Model
  | .model plugin name globalId rest =>
      { rest with plugin := .ofOption plugin, name := .str name, globalId := .str globalId }
  | .component uid name globalId rest =>
      { rest with uid := .ofOption uid, name := .str name, globalId := .str globalId }

/-- What a registry answers to the offer: the registry with the entry, or
why it is refused. -/
def answer (r : Registry) : Offer → Except Fault Registry
  | o@(.model ..) => r.register o.entry
  | o@(.component ..) => r.registerComponent o.entry

/-- A registry after the offer. -/
def after (r : Registry) : Offer → Registry
  | o@(.model ..) => r.afterRegister o.entry
  | o@(.component ..) => r.afterRegisterComponent o.entry

/-- What is kept of the offer of a model, and where. -/
def model? : Offer → Option ((Option String × String) × Model)
  | o@(.model plugin name _ _) => some ((plugin, name), o.entry)
  | .component .. => none

/-- What is kept of the offer of a component, and where. -/
def component? : Offer → Option (String × Model)
  | .model .. => none
  | o@(.component uid name _ _) => some (uidOf uid name, withUid o.entry)

end Offer

-- =================================================================== logs

/-- The registry after offers to the empty one. -/
def run (os : List Offer) : Registry := os.foldl Offer.after empty

/-- Those of further offers to a registry that it takes. -/
def takenFrom (r : Registry) : List Offer → List Offer
  | [] => []
  | o :: os =>
      if (o.answer r).toBool then o :: takenFrom (o.after r) os else takenFrom (o.after r) os

/-- Those of offers that the registry takes. -/
def taken (os : List Offer) : List Offer := takenFrom empty os

/-- The last entry of a place. -/
def last {κ : Type} [BEq κ] (entries : List (κ × Model)) (place : κ) : Option Model :=
  Assoc.get? entries.reverse place

/-- The registry that a log of offers tells. -/
def ofLog (log : List Offer) : Registry where
  models := Assoc.ofPairs ((log.filterMap Offer.model?).map fun e => (ModelKey.ofTexts e.1, e.2))
  components := Assoc.ofPairs ((log.filterMap Offer.component?).map fun e => (Key.ofText e.1, e.2))
  claims := Assoc.ofPairs (log.map fun o => (Key.ofText o.globalId, .str o.label))

/-- Whether a log has the global id of an offer under another label. -/
def Blocks (log : List Offer) (o : Offer) : Prop :=
  ∃ o' ∈ log, o'.globalId = o.globalId ∧ o'.label ≠ o.label

/-- In a log every global id is under one label. -/
def Coherent (log : List Offer) : Prop := ∀ o ∈ log, ¬Blocks log o

variable {log : List Offer} {o : Offer}

/-- An offer that is not blocked keeps global ids under one label each. -/
theorem Coherent.append (h : Coherent log) (ho : ¬Blocks log o) : Coherent (log ++ [o]) := by
  rintro o₁ h₁ ⟨o₂, h₂, hid, hlabel⟩
  rw [List.mem_append, List.mem_singleton] at h₁ h₂
  rcases h₁ with h₁ | rfl <;> rcases h₂ with h₂ | rfl
  · exact h o₁ h₁ ⟨o₂, h₂, hid, hlabel⟩
  · exact ho ⟨o₁, h₁, hid.symm, hlabel.symm⟩
  · exact ho ⟨o₂, h₂, hid, hlabel⟩
  · exact hlabel rfl

-- ============================================================== one offer

/-- A registry with one more entry, whatever its global id. -/
def keep (r : Registry) (o : Offer) : Registry :=
  match o with
  | .model plugin name _ _ =>
      { r with models := Assoc.put (ModelKey.ofTexts (plugin, name)) o.entry r.models }
  | .component uid name _ _ =>
      { r with
        components := Assoc.put (Key.ofText (Offer.uidOf uid name)) (withUid o.entry) r.components }

/-- A registry in which the global id of an offer is under its label. -/
def claimed (r : Registry) (o : Offer) : Registry :=
  { r with claims := Assoc.put (Key.ofText o.globalId) (.str o.label) r.claims }

/-- A log with one more offer tells of the same registry with its entry. -/
theorem ofLog_append (log : List Offer) (o : Offer) :
    ofLog (log ++ [o]) = ((ofLog log).claimed o).keep o := by
  unfold ofLog
  rw [List.filterMap_append, List.filterMap_append, List.map_append, List.map_append,
    List.map_append]
  cases o with
  | model plugin name globalId rest =>
      show Registry.mk (Assoc.ofPairs (_ ++ [(ModelKey.ofTexts (plugin, name), _)]))
        (Assoc.ofPairs (_ ++ [])) (Assoc.ofPairs (_ ++ [(Key.ofText globalId, _)])) = _
      rw [Assoc.ofPairs_concat, Assoc.ofPairs_concat, List.append_nil]
      rfl
  | component uid name globalId rest =>
      show Registry.mk (Assoc.ofPairs (_ ++ []))
        (Assoc.ofPairs (_ ++ [(Key.ofText (Offer.uidOf uid name), _)]))
        (Assoc.ofPairs (_ ++ [(Key.ofText globalId, _)])) = _
      rw [Assoc.ofPairs_concat, Assoc.ofPairs_concat, List.append_nil]
      rfl

theorem modelLabel_entry (plugin : Option String) (name globalId : String) (rest : Model) :
    modelLabel (Offer.model plugin name globalId rest).entry
      = .str (Place.model plugin name).label := by
  cases plugin with
  | none => rfl
  | some plugin =>
      show (if (plugin != "") = true then _ else Value.str name)
        = Value.str (if plugin = "" then name else _)
      by_cases hp : plugin = ""
      · rw [hp]
        rfl
      · rw [if_pos (bne_iff_ne.2 hp), if_neg hp]
        rfl

theorem uid_withUid (uid : Option String) (name globalId : String) (rest : Model) :
    (withUid (Offer.component uid name globalId rest).entry).uid
      = .str (Offer.uidOf uid name) := by
  cases uid with
  | none => rfl
  | some uid =>
      show (if (uid != "") = true then Value.str uid else Value.str name)
        = Value.str ((if decide (uid ≠ "") = true then some uid else none).getD name)
      by_cases hu : uid = ""
      · rw [hu]
        rfl
      · rw [if_pos (bne_iff_ne.2 hu), if_pos (decide_eq_true hu)]
        rfl

/-- The answer to an offer is that to the claim of its global id. -/
theorem answer_eq (r : Registry) (o : Offer) :
    o.answer r = (r.claim (.str o.globalId) (.str o.label)).map fun r => r.keep o := by
  cases o with
  | model plugin name globalId rest =>
      show (r.claim (.str globalId) (modelLabel _) >>= fun r =>
        ModelKey.ofValues (.ofOption plugin) (.str name) >>= fun key => _) = _
      rw [modelLabel_entry, ModelKey.ofValues_texts]
      rfl
  | component uid name globalId rest =>
      show (r.claim (.str globalId) (componentLabel (withUid _).uid) >>= fun r =>
        (withUid _).uid.key >>= fun key => _) = _
      rw [uid_withUid]
      rfl

/-- An offer that is refused leaves nothing behind. -/
theorem after_eq (r : Registry) (o : Offer) :
    o.after r = match o.answer r with
      | .ok r' => r'
      | .error _ => r := by
  have hafter : o.after r
      = r.afterOffer (r.claim (.str o.globalId) (.str o.label)) (o.answer r) := by
    cases o with
    | model plugin name globalId rest =>
        show r.afterOffer (r.claim (.str globalId) (modelLabel _)) _ = _
        rw [modelLabel_entry]
        rfl
    | component uid name globalId rest =>
        show r.afterOffer (r.claim (.str globalId) (componentLabel (withUid _).uid)) _ = _
        rw [uid_withUid]
        rfl
  rw [hafter, answer_eq]
  cases r.claim (.str o.globalId) (.str o.label) <;> rfl

/-- What a claim says depends on the label that has the global id. -/
theorem claim_texts (r : Registry) (globalId label : String) :
    r.claim (.str globalId) (.str label)
      = if (Assoc.get? r.claims (Key.ofText globalId)).getD .null ≠ .null
          ∧ ((Assoc.get? r.claims (Key.ofText globalId)).getD .null).agrees (.str label) = false
        then .error (.duplicateType (.str globalId)
          ((Assoc.get? r.claims (Key.ofText globalId)).getD .null) (.str label))
        else .ok { r with claims := Assoc.put (Key.ofText globalId) (.str label) r.claims } := by
  show (if _ ∧ _ then _ else _) = _
  split
  · next hother => exact (if_pos hother).symm
  · next hsame => exact (if_neg hsame).symm

theorem claim_of_owner {r : Registry} {o : Offer} {owner : String}
    (h : Assoc.get? r.claims (Key.ofText o.globalId) = some (.str owner)) :
    r.claim (.str o.globalId) (.str o.label)
      = if owner ≠ o.label then
          .error (.duplicateType (.str o.globalId) (.str owner) (.str o.label))
        else .ok (r.claimed o) := by
  rw [claim_texts, h, Option.getD_some, Value.agrees_str]
  simp [claimed]

theorem claim_of_free {r : Registry} {o : Offer}
    (h : Assoc.get? r.claims (Key.ofText o.globalId) = none) :
    r.claim (.str o.globalId) (.str o.label) = .ok (r.claimed o) := by
  rw [claim_texts, h]
  simp [claimed]

-- ================================================================== steps

/-- A global id that a log has is under the label of one of its offers. -/
theorem claims_ofLog (log : List Offer) (globalId : String) :
    (Assoc.get? (ofLog log).claims (Key.ofText globalId) = none
        ∧ ∀ o ∈ log, o.globalId ≠ globalId)
      ∨ ∃ o ∈ log, o.globalId = globalId
        ∧ Assoc.get? (ofLog log).claims (Key.ofText globalId) = some (.str o.label) := by
  have hclaims : Assoc.get? (ofLog log).claims (Key.ofText globalId)
      = Assoc.get? (log.map fun o => (Key.ofText o.globalId, Value.str o.label)).reverse
          (Key.ofText globalId) := Assoc.get?_ofPairs _ _
  rw [hclaims]
  cases hfound : Assoc.get? _ (Key.ofText globalId) with
  | none =>
      refine Or.inl ⟨rfl, fun o ho hid => ?_⟩
      rw [Assoc.get?_eq_none_iff, Assoc.has, List.any_eq_false] at hfound
      refine hfound (Key.ofText o.globalId, .str o.label) ?_ (by simp [hid])
      exact List.mem_reverse.2 (List.mem_map_of_mem ho)
  | some label =>
      obtain ⟨key, hmem, hsame⟩ := Assoc.mem_of_get?_eq_some hfound
      obtain ⟨o, ho, hpair⟩ := List.mem_map.1 (List.mem_reverse.1 hmem)
      cases hpair
      rw [Key.ofText_beq, beq_iff_eq] at hsame
      exact Or.inr ⟨o, ho, hsame, rfl⟩

/-- An offer that a log blocks is refused, and names the label that has its
global id. -/
theorem answer_of_blocks (h : Coherent log) (hblocks : Blocks log o) :
    ∃ o' ∈ log, o'.globalId = o.globalId ∧ o'.label ≠ o.label
      ∧ o.answer (ofLog log)
          = .error (.duplicateType (.str o.globalId) (.str o'.label) (.str o.label)) := by
  obtain ⟨o₁, h₁, hid₁, hlabel₁⟩ := hblocks
  rcases claims_ofLog log o.globalId with ⟨_, hfree⟩ | ⟨o₂, h₂, hid₂, howner⟩
  · exact absurd hid₁ (hfree o₁ h₁)
  · -- whichever offer has claimed the global id last, it did so under the one label
    have hsame : o₁.label = o₂.label := by
      by_contra hne
      exact h o₂ h₂ ⟨o₁, h₁, hid₁.trans hid₂.symm, hne⟩
    refine ⟨o₂, h₂, hid₂, hsame ▸ hlabel₁, ?_⟩
    rw [answer_eq, claim_of_owner howner, if_pos (hsame ▸ hlabel₁)]
    rfl

/-- An offer that a log does not block is taken. -/
theorem answer_of_not_blocks (hblocks : ¬Blocks log o) :
    o.answer (ofLog log) = .ok (ofLog (log ++ [o])) := by
  rw [answer_eq, ofLog_append]
  rcases claims_ofLog log o.globalId with ⟨hnone, _⟩ | ⟨o', ho', hid, howner⟩
  · rw [claim_of_free hnone]
    rfl
  · have hlabel : ¬o'.label ≠ o.label := fun hne => hblocks ⟨o', ho', hid, hne⟩
    rw [claim_of_owner howner, if_neg hlabel]
    rfl

-- =================================================================== runs

/-- Further offers to the registry that a log tells lead to the registry
that the log tells with those of them that are taken. -/
theorem foldl_after_ofLog (h : Coherent log) (os : List Offer) :
    os.foldl Offer.after (ofLog log) = ofLog (log ++ takenFrom (ofLog log) os)
      ∧ Coherent (log ++ takenFrom (ofLog log) os) := by
  induction os generalizing log with
  | nil =>
      rw [takenFrom, List.append_nil]
      exact ⟨rfl, h⟩
  | cons o os ih =>
      rw [List.foldl_cons, takenFrom, after_eq]
      by_cases hblocks : Blocks log o
      · obtain ⟨_, _, _, _, hanswer⟩ := answer_of_blocks h hblocks
        rw [hanswer]
        exact ih h
      · rw [answer_of_not_blocks hblocks]
        have hrest := ih (h.append hblocks)
        rw [List.append_assoc, List.singleton_append] at hrest
        exact hrest

variable (os : List Offer)

theorem run_eq_and_coherent : run os = ofLog (taken os) ∧ Coherent (taken os) := by
  have hnil : Coherent [] := fun _ ho => (by cases ho)
  exact foldl_after_ofLog hnil os

/-- A registry is told by the offers that it took. -/
theorem run_eq_ofLog : run os = ofLog (taken os) := (run_eq_and_coherent os).1

theorem coherent_taken : Coherent (taken os) := (run_eq_and_coherent os).2

end Registry

end ModelSchema
