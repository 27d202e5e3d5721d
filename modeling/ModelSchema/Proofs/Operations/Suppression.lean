/-
Suppressed operations. The fragment of the operations of a model is made,
text by text, of the operations that are kept and of their types, and of
the input types of the model if a mutation is kept (`operations_eq_ok_iff`).
No text of a kept operation asks what becomes of another one. So what is
emitted is the row of derived operations less the suppressed ones, and
suppressing more of them only takes more away (`operations_suppression`).
-/
import ModelSchema.Proofs.Names.Entries
import ModelSchema.Proofs.Reading.Names

namespace ModelSchema

open Declaration (Field)

namespace Compiler

variable {c c' : Compiler} {m : Model}

-- ====================================================== kept operations

/-- Whether a query field is not suppressed. -/
def keepsQuery (c : Compiler) (f : Field) : Bool := !c.isSuppressed "Query" f.key

/-- Whether a mutation of a model is not suppressed. -/
def keepsMutation (c : Compiler) (m : Model) (action : Inputs.Action) : Bool :=
  !c.isSuppressed "Mutation" (mutationName m.singular action)

/-- The mutations of a model that are not suppressed, by what they do. -/
def keptActions (c : Compiler) (m : Model) : List Inputs.Action :=
  (actions m).filter (c.keepsMutation m)

/-- The argument and payload types of a mutation. -/
def mutationTypes (m : Model) (action : Inputs.Action) : List Declaration :=
  Inputs.mutationDeclarations m m.singular (m.base ++ "Input") (mutationName m.singular action)
    action

/-- The field of a mutation. -/
def fieldOfMutation (c : Compiler) (m : Model) (action : Inputs.Action) : Field :=
  c.mutationField m (mutationName m.singular action, action)

/-- Lines as one text, if there are any. -/
def lineBlock (lines : List String) : List String :=
  if lines.isEmpty then [] else [String.intercalate "\n" lines]

/-- Declarations as one text, if there are any. -/
def textBlock (ds : List Declaration) : List String :=
  if ds.isEmpty then [] else [Declaration.texts ds]

/-- The fragment of some operations of a model, with input types. -/
def operationsFragment (c : Compiler) (m : Model) (queries : List Field)
    (actions : List Inputs.Action) (inputs : List Declaration) : Fragment :=
  { definition := textBlock inputs ++ actions.map fun a => Declaration.texts (mutationTypes m a)
    query := lineBlock (queries.map Field.line)
    mutation := lineBlock (actions.map fun a => (c.fieldOfMutation m a).line)
    objectTypes := actions.map fun a =>
      .ofText (Inputs.payloadName (mutationName m.singular a)) }

/-- The input types of a model, if some of its mutations are kept. -/
def inputsFor (c : Compiler) (m : Model) (kept : List Inputs.Action) :
    Except Fault (List Declaration) :=
  if kept.isEmpty then pure []
  else Inputs.inputDeclarations c.registry c.visibility m m.globalId false

theorem mutations_eq_keptActions :
    c.mutations m m.singular
      = (c.keptActions m).map fun a => (mutationName m.singular a, a) := by
  unfold mutations keptActions
  rw [List.filter_map]
  rfl

theorem inputTexts_eq :
    c.inputTexts m (c.mutations m m.singular)
      = textBlock <$> c.inputsFor m (c.keptActions m) := by
  unfold inputTexts inputsFor
  rw [mutations_eq_keptActions, List.isEmpty_map]
  split
  · rfl
  · rw [Inputs.inputModel_eq]
    cases hds : Inputs.inputDeclarations c.registry c.visibility m m.globalId false with
    | error e => rfl
    | ok ds =>
        obtain ⟨_, _, _, _, _, rfl⟩ := Inputs.inputDeclarations_eq_ok _ _ hds
        rfl

/-- What a model offers, given its query fields. -/
def offeredOf (c : Compiler) (m : Model) (fields : List Field) : Offered :=
  { queries := (fields.filter c.keepsQuery).map entryOf
    mutations := c.mutations m m.singular
    payloads := (c.mutations m m.singular).map fun (name, a) => Declaration.texts
      (Inputs.mutationDeclarations m m.singular (m.base ++ "Input") name a) }

theorem offered_eq (hs : Naming.singularOf m.globalId = .ok m.singular) :
    c.offered m = c.offeredOf m <$> c.queryFields m m.singular := by
  unfold offered
  simp only [hs, queries_eq, payloads_eq hs, bind, Except.bind]
  cases c.queryFields m m.singular with
  | error e => rfl
  | ok fields =>
      show Except.ok (Offered.mk ((fields.map entryOf).filter _) _ _) = Except.ok _
      rw [List.filter_map]
      rfl

/-- What a model offers is written operation by operation. -/
theorem offeredFragment_eq {fields : List Field} (h : c.queryFields m m.singular = .ok fields)
    (inputs : List Declaration) :
    c.offeredFragment m (c.offeredOf m fields) (textBlock inputs)
      = c.operationsFragment m (fields.filter c.keepsQuery) (c.keptActions m) inputs := by
  have shapes : ((c.mutations m m.singular).map fun (name, a) => (name, mutationShape m name a))
      = ((c.keptActions m).map (c.fieldOfMutation m)).map entryOf := by
    rw [mutations_eq_keptActions, List.map_map, List.map_map]
    refine List.map_congr_left fun a _ => ?_
    show _ = (mutationName m.singular a, (c.mutationField m _).shape)
    rw [shape_mutationField]
    rfl
  unfold offeredFragment operationsFragment offeredOf lineBlock
  dsimp only
  rw [shapes, renderOperations_eq, renderOperations_eq, mutations_eq_keptActions]
  · simp only [List.map_map, List.isEmpty_map]
    rfl
  · intro f hf
    obtain ⟨a, _, rfl⟩ := List.mem_map.1 hf
    rfl
  · exact fun f hf => c.metadata_queryFields h (List.mem_of_mem_filter hf)

/-- The operations of a model are what they are made of, text by text. -/
theorem operations_eq_ok_iff {f : Fragment} :
    c.operations m = .ok f ↔ ∃ fields inputs,
      Naming.singularOf m.globalId = .ok m.singular
        ∧ c.queryFields m m.singular = .ok fields
        ∧ c.inputsFor m (c.keptActions m) = .ok inputs
        ∧ f = c.operationsFragment m (fields.filter c.keepsQuery) (c.keptActions m) inputs := by
  rw [operations_eq]
  constructor
  · intro h
    obtain ⟨o, ho, h⟩ := bind_eq_ok.1 h
    obtain ⟨texts, htexts, h⟩ := bind_eq_ok.1 h
    have hs : Naming.singularOf m.globalId = .ok m.singular := by
      obtain ⟨s, hs, _⟩ := bind_eq_ok.1 ho
      rw [hs, Naming.singularOf_eq_ok hs]
      rfl
    rw [offered_eq hs] at ho
    obtain ⟨fields, hfields, rfl⟩ := map_eq_ok.1 ho
    change c.inputTexts m (c.mutations m m.singular) = _ at htexts
    rw [inputTexts_eq] at htexts
    obtain ⟨inputs, hinputs, rfl⟩ := map_eq_ok.1 htexts
    rw [offeredFragment_eq hfields] at h
    exact ⟨fields, inputs, hs, hfields, hinputs, (Except.ok.inj h).symm⟩
  · rintro ⟨fields, inputs, hs, hfields, hinputs, rfl⟩
    refine bind_eq_ok.2 ⟨c.offeredOf m fields, ?_, bind_eq_ok.2 ⟨textBlock inputs, ?_, ?_⟩⟩
    · rw [offered_eq hs, hfields]
      rfl
    · show c.inputTexts m (c.mutations m m.singular) = _
      rw [inputTexts_eq, hinputs]
      rfl
    · rw [offeredFragment_eq hfields]
      rfl

-- ========================================================= what is derived

theorem mem_keptActions {action : Inputs.Action} :
    action ∈ c.keptActions m ↔ action ∈ actions m
      ∧ c.isSuppressed "Mutation" (mutationName m.singular action) = false := by
  unfold keptActions keepsMutation
  rw [List.mem_filter, Bool.not_eq_true']

-- ================================================== types of what is kept

/-- A compiler that differs from another one only in that it suppresses
more operations. -/
structure Suppresses (c' c : Compiler) : Prop where
  registry : c'.registry = c.registry
  visibility : c'.visibility = c.visibility
  config : c'.config = c.config
  entry : ∀ root, root = "Query" ∨ root = "Mutation" → ∀ name,
    c'.isSuppressed root name = true
      ∨ Assoc.get? (c'.contributed.resolversFor (.ofText root)) name
        = Assoc.get? (c.contributed.resolversFor (.ofText root)) name

theorem get?_rootConfigurations (c : Compiler) (root name : String) :
    Assoc.get? (c.rootConfigurations root) name
      = (Assoc.get? (c.contributed.resolversFor (.ofText root)) name).map
        fun e => e.content.toValue := by
  unfold rootConfigurations
  generalize c.contributed.resolversFor (.ofText root) = entries
  induction entries with
  | nil => rfl
  | cons e entries ih =>
      rw [List.map_cons, Assoc.get?_cons, Assoc.get?_cons, ih]
      cases e.1 == name <;> rfl

variable {root : String}

/-- What is suppressed stays so. -/
theorem Suppresses.isSuppressed (h : c'.Suppresses c) (hroot : root = "Query" ∨ root = "Mutation")
    {name : String} (hname : c.isSuppressed root name = true) :
    c'.isSuppressed root name = true := by
  rcases h.entry root hroot name with hnew | hold
  · exact hnew
  · unfold Compiler.isSuppressed at hname ⊢
    rw [hold]
    exact hname

/-- What is said of an operation that is kept stays. -/
theorem Suppresses.configuredMetadata (h : c'.Suppresses c)
    (hroot : root = "Query" ∨ root = "Mutation") {key : String} (hkey : NamePart key)
    (hkept : c'.isSuppressed root key = false) :
    Sdl.configuredMetadata (c'.rootConfigurations root) key
      = Sdl.configuredMetadata (c.rootConfigurations root) key := by
  have hentry := (h.entry root hroot key).resolve_left (by rw [hkept]; exact Bool.false_ne_true)
  unfold Sdl.configuredMetadata Value.getD
  rw [Sdl.baseName_of_namePart hkey, get?_rootConfigurations, get?_rootConfigurations, hentry]

theorem namePart_singular (m : Model) : NamePart m.singular := by
  unfold Model.singular Naming.toSingular
  split
  · exact Naming.namePart_camelCase _
  · exact Naming.namePart_camelCase _

theorem namePart_mutationName (m : Model) (action : Inputs.Action) :
    NamePart (mutationName m.singular action) := by
  have hword : NamePart action.text := by
    cases action <;> exact NamePart.of_isName rfl
  intro c hc
  unfold mutationName at hc
  rw [String.toList_append] at hc
  rcases List.mem_append.1 hc with hc | hc
  · exact hword c hc
  · exact Naming.namePart_upperFirst (namePart_singular m) c hc

theorem namePart_listName (m : Model) :
    NamePart (listName m.singular (Naming.toPlural m.globalId.text)) := by
  unfold listName
  split
  · intro c hc
    rw [String.toList_append] at hc
    rcases List.mem_append.1 hc with hc | hc
    · exact namePart_singular m c hc
    · exact NamePart.of_isName (s := "List") rfl c hc
  · unfold Naming.toPlural
    split
    · exact Naming.namePart_camelCase _
    · exact Naming.namePart_camelCase _

/-- Every query of a model has a key that may stand in a name. -/
theorem namePart_key {fields : List Field} (hs : Naming.singularOf m.globalId = .ok m.singular)
    (h : c.queryFields m m.singular = .ok fields) {f : Field} (hf : f ∈ fields) :
    NamePart f.key := by
  have hkeys := List.mem_map_of_mem (f := Field.key) hf
  rw [key_queryFields hs h] at hkeys
  unfold Model.queryNames at hkeys
  split at hkeys
  · rw [List.mem_singleton.1 hkeys]
    exact namePart_singular m
  · rcases List.mem_cons.1 hkeys with hkey | hkeys
    · rw [hkey]
      exact namePart_singular m
    · rw [List.mem_singleton.1 hkeys]
      exact namePart_listName m

/-- A field with what is configured for it elsewhere. -/
def restated (c' : Compiler) (f : Field) : Field :=
  { f with metadata := Sdl.configuredMetadata (c'.rootConfigurations "Query") f.key }

theorem Suppresses.queryFields (h : c'.Suppresses c) :
    c'.queryFields m m.singular
      = List.map c'.restated <$> c.queryFields m m.singular := by
  unfold Compiler.queryFields listArgumentTypes
  rw [h.config]
  cases m.isSingleType with
  | true => rfl
  | false =>
      cases Naming.pluralOf m.globalId with
      | error e => rfl
      | ok plural =>
          cases c.config.listArguments.pairs with
          | error e => rfl
          | ok pairs => rfl

/-- The queries that are kept are kept as they were. -/
theorem Suppresses.filter_queries (h : c'.Suppresses c)
    (hs : Naming.singularOf m.globalId = .ok m.singular) {fields : List Field}
    (hfields : c.queryFields m m.singular = .ok fields) :
    (fields.map c'.restated).filter c'.keepsQuery
      = (fields.filter c.keepsQuery).filter c'.keepsQuery := by
  have kept (f : Field) (hf : f ∈ fields.filter c'.keepsQuery) : c'.restated f = f := by
    obtain ⟨hmem, hkept⟩ := List.mem_filter.1 hf
    unfold restated
    rw [h.configuredMetadata (.inl rfl) (namePart_key hs hfields hmem)
      (Bool.not_eq_true' _ ▸ hkept), ← c.metadata_queryFields hfields hmem]
  have both : (fields.filter c.keepsQuery).filter c'.keepsQuery
      = fields.filter c'.keepsQuery := by
    rw [List.filter_filter]
    refine List.filter_congr fun f _ => ?_
    unfold keepsQuery
    cases hsuppressed : c.isSuppressed "Query" f.key with
    | true => rw [h.isSuppressed (.inl rfl) hsuppressed]; rfl
    | false => exact Bool.and_true _
  rw [both, List.filter_map]
  exact (List.map_congr_left kept).trans (List.map_id' _)

/-- The mutations that are kept were kept before. -/
theorem Suppresses.keptActions (h : c'.Suppresses c) :
    c'.keptActions m = (c.keptActions m).filter (c'.keepsMutation m) := by
  unfold Compiler.keptActions
  rw [List.filter_filter]
  refine List.filter_congr fun action _ => ?_
  unfold keepsMutation
  cases hsuppressed : c.isSuppressed "Mutation" (mutationName m.singular action) with
  | true => rw [h.isSuppressed (.inr rfl) hsuppressed]; rfl
  | false => exact (Bool.and_true _).symm

/-- A mutation that is kept is kept as it was. -/
theorem Suppresses.fieldOfMutation (h : c'.Suppresses c) {action : Inputs.Action}
    (hkept : action ∈ c'.keptActions m) :
    c'.fieldOfMutation m action = c.fieldOfMutation m action := by
  unfold Compiler.fieldOfMutation mutationField rootField
  rw [h.configuredMetadata (.inr rfl) (namePart_mutationName m action) (mem_keptActions.1 hkept).2]

/-- The input types stay as long as a mutation does. -/
theorem Suppresses.inputsFor (h : c'.Suppresses c) {inputs : List Declaration}
    (hinputs : c.inputsFor m (c.keptActions m) = .ok inputs) :
    c'.inputsFor m (c'.keptActions m)
      = .ok (if (c'.keptActions m).isEmpty then [] else inputs) := by
  unfold Compiler.inputsFor at hinputs ⊢
  rw [h.registry, h.visibility]
  split
  · rfl
  · next hsome =>
      rw [if_neg] at hinputs
      · exact hinputs
      · intro hnone
        rw [h.keptActions, List.isEmpty_iff.1 hnone] at hsome
        exact hsome rfl

/-- Suppressing more operations only takes their texts away. -/
theorem Suppresses.operations (h : c'.Suppresses c)
    (hs : Naming.singularOf m.globalId = .ok m.singular) {fields : List Field}
    (hfields : c.queryFields m m.singular = .ok fields) {inputs : List Declaration}
    (hinputs : c.inputsFor m (c.keptActions m) = .ok inputs) :
    c'.operations m = .ok (c.operationsFragment m
      ((fields.filter c.keepsQuery).filter c'.keepsQuery) (c'.keptActions m)
      (if (c'.keptActions m).isEmpty then [] else inputs)) := by
  refine operations_eq_ok_iff.2 ⟨fields.map c'.restated, _, hs, ?_, h.inputsFor hinputs, ?_⟩
  · exact h.queryFields.trans (map_eq_ok.2 ⟨fields, hfields, rfl⟩)
  · rw [h.filter_queries hs hfields]
    unfold operationsFragment
    rw [List.map_congr_left fun action haction =>
      congrArg Field.line (h.fieldOfMutation haction).symm]

-- ======================================================== any operations

theorem Suppresses.refl (c : Compiler) : c.Suppresses c :=
  ⟨rfl, rfl, rfl, fun _ _ _ => .inr rfl⟩

theorem Suppresses.trans {c'' : Compiler} (h : c''.Suppresses c') (h' : c'.Suppresses c) :
    c''.Suppresses c where
  registry := h.registry.trans h'.registry
  visibility := h.visibility.trans h'.visibility
  config := h.config.trans h'.config
  entry root hroot name := by
    rcases h.entry root hroot name with hnew | hold
    · exact .inl hnew
    · rcases h'.entry root hroot name with hnew | hold'
      · exact .inl (h.isSuppressed hroot hnew)
      · exact .inr (hold.trans hold')

end Compiler

end ModelSchema
