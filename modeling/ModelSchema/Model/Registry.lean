/-
The registry of models and components. A model is found by its plugin
and name, a component by its uid. Each registration claims its global id
under a label made of these, and a global id that another label has
claimed is refused.
-/
import ModelSchema.Model.Basic

namespace ModelSchema

/-- What a model is found by: its plugin, null for the application, and its
name. -/
structure ModelKey where
  plugin : Key
  name : Key
deriving DecidableEq

namespace ModelKey

instance : BEq ModelKey := ⟨fun a b => a.plugin == b.plugin && a.name == b.name⟩

theorem beq_iff (a b : ModelKey) :
    (a == b) = true ↔ (a.plugin == b.plugin) = true ∧ (a.name == b.name) = true := by
  show (a.plugin == b.plugin && a.name == b.name) = true ↔ _
  rw [Bool.and_eq_true]

instance : EquivBEq ModelKey where
  rfl := (beq_iff _ _).2 ⟨BEq.rfl, BEq.rfl⟩
  symm h := by
    obtain ⟨hp, hn⟩ := (beq_iff _ _).1 h
    exact (beq_iff _ _).2 ⟨BEq.symm hp, BEq.symm hn⟩
  trans h h' := by
    obtain ⟨hp, hn⟩ := (beq_iff _ _).1 h
    obtain ⟨hp', hn'⟩ := (beq_iff _ _).1 h'
    exact (beq_iff _ _).2 ⟨BEq.trans hp hp', BEq.trans hn hn'⟩

/-- The key of a plugin and a name. -/
def ofValues (plugin name : Value) : Except Fault ModelKey := do
  return ⟨← plugin.key, ← name.key⟩

end ModelKey

/-- Registered models and components, each in the order of its first
registration, with the label that claimed each global id. -/
structure Registry where
  models : List (ModelKey × Model) := []
  components : List (Key × Model) := []
  claims : List (Key × Value) := []
deriving Inhabited

namespace Registry

/-- The registry without entries. -/
def empty : Registry := {}

-- ====================================================== registration

/-- The label of a model: its name, after its plugin if it has one. -/
def modelLabel (m : Model) : Value :=
  if m.plugin.isGiven then .str (m.plugin.text ++ "::" ++ m.name.text) else m.name

/-- The label of a component. -/
def componentLabel (uid : Value) : Value := .str ("component::" ++ uid.text)

/-- Claims a global id under a label. -/
def claim (r : Registry) (globalId label : Value) : Except Fault Registry := do
  let id ← globalId.key
  let owner := (Assoc.get? r.claims id).getD .null
  if owner ≠ .null ∧ owner.agrees label = false then
    throw (.duplicateType globalId owner label)
  return { r with claims := Assoc.put id label r.claims }

/-- Registers a model, in place of one with the same plugin and name. -/
def register (r : Registry) (m : Model) : Except Fault Registry := do
  let r ← r.claim m.globalId (modelLabel m)
  return { r with models := Assoc.put (← ModelKey.ofValues m.plugin m.name) m r.models }

/-- A component with its uid, which is its name if it has no other. -/
def withUid (c : Model) : Model := { c with uid := c.uid.orElse c.name }

/-- Registers a component, in place of one with the same uid. -/
def registerComponent (r : Registry) (c : Model) : Except Fault Registry := do
  let uid := (withUid c).uid
  let r ← r.claim c.globalId (componentLabel uid)
  return { r with components := Assoc.put (← uid.key) (withUid c) r.components }

/-- What an offer leaves behind. An entry that is refused only for its key
has claimed its global id all the same. -/
def afterOffer (r : Registry) (claimed kept : Except Fault Registry) : Registry :=
  match kept, claimed with
  | .ok r, _ => r
  | .error _, .ok r => r
  | .error _, .error _ => r

/-- The registry after a model was offered to it. -/
def afterRegister (r : Registry) (m : Model) : Registry :=
  r.afterOffer (r.claim m.globalId (modelLabel m)) (r.register m)

/-- The registry after a component was offered to it. -/
def afterRegisterComponent (r : Registry) (c : Model) : Registry :=
  r.afterOffer (r.claim c.globalId (componentLabel (withUid c).uid)) (r.registerComponent c)

-- =========================================================== look-up

/-- The model of a name: the plugin's if a plugin is named and has one,
else the application's. -/
def getModel (r : Registry) (name plugin : Value) : Except Fault Model := do
  let key ← ModelKey.ofValues plugin name
  let own := if plugin = .null then none else Assoc.get? r.models key
  match own.or (Assoc.get? r.models { key with plugin := ⟨.null, rfl⟩ }) with
  | some m => return m
  | none => throw (.unknownModel name plugin)

/-- The component of a uid. -/
def getComponent (r : Registry) (uid : Value) : Except Fault Model := do
  match Assoc.get? r.components (← uid.key) with
  | some c => return c
  | none => throw (.unknownModel uid .null)

/-- The model of a name is the plugin's or the application's. -/
theorem getModel_eq (r : Registry) (name plugin : Value) :
    r.getModel name plugin = ModelKey.ofValues plugin name >>= fun key =>
      ((if plugin = .null then none else Assoc.get? r.models key).or
        (Assoc.get? r.models { key with plugin := ⟨.null, rfl⟩ })).elim
        (throw (.unknownModel name plugin)) pure := by
  unfold getModel
  refine bind_congr fun key => ?_
  dsimp only
  generalize Option.or _ _ = found
  cases found <;> rfl

theorem getComponent_eq (r : Registry) (uid : Value) :
    r.getComponent uid = uid.key >>= fun key =>
      (Assoc.get? r.components key).elim (throw (.unknownModel uid .null)) pure := by
  unfold getComponent
  refine bind_congr fun key => ?_
  cases Assoc.get? r.components key <;> rfl

/-- The registry with an entry replaced by what has become of it. -/
def replace (r : Registry) (old new : Model) : Registry :=
  { r with
    models := r.models.map fun (key, m) => (key, if m = old then new else m)
    components := r.components.map fun (key, c) => (key, if c = old then new else c) }

/-- The number of entries. -/
def size (r : Registry) : Nat := r.models.length + r.components.length

-- ======================================================= definitions

/-- Registers the components of definitions. A component is of the kind
`component` unless its definition says otherwise. -/
def addComponents (r : Registry) (definitions : List (String × Value)) :
    Except Fault Registry :=
  definitions.foldlM
    (fun r (uid, definition) => do
      let .map settings := definition | throw .wrongKind
      let settings := Assoc.putAll [("kind", .str "component")] settings
      let c ← Model.ofDefinition (.str uid) (.map settings) .null
      r.registerComponent { c with uid := .str uid })
    r

/-- Registers the models of definitions under a plugin. -/
def addModels (r : Registry) (plugin : Value) (definitions : List (String × Value)) :
    Except Fault Registry :=
  definitions.foldlM
    (fun r (name, definition) => do
      r.register (← Model.ofDefinition (.str name) definition plugin))
    r

/-- The registry of definitions: components, then the models of plugins,
then those of the application. -/
def ofDefinitions (models components plugins : Value) : Except Fault Registry := do
  let r ← empty.addComponents (← components.settingsIfGiven)
  let r ← (← plugins.settingsIfGiven).foldlM
    (fun r (plugin, definitions) => do
      r.addModels (.str plugin) (← definitions.settings))
    r
  r.addModels .null (← models.settingsIfGiven)

end Registry

end ModelSchema
