/-
The operations of a model as an outline: the fields that it puts to the
root types, the input types of its mutations and the types of their
arguments and payloads. The fragment of its operations renders it
(`operations_eq_ok`).
-/
import ModelSchema.Proofs.Outline.Basic
import ModelSchema.Proofs.Outline.Inputs

namespace ModelSchema.Compiler

open Declaration (Field)

variable (c : Compiler)

-- ============================================================== queries

/-- A field of a root type, with what is configured for it. -/
def rootField (root key : String) (args : List (String × TypeRef)) (type : TypeRef) : Field :=
  { key := key
    args := args
    type := type
    metadata := Sdl.configuredMetadata (c.rootConfigurations root) key }

/-- The typed arguments of list queries. -/
def listArgumentTypes : Except Fault (List (String × TypeRef)) := do
  return (← c.config.listArguments.pairs).map fun (name, type) => (name.value.text, .named type)

/-- The query fields of a model, suppressed ones among them. -/
def queryFields (m : Model) (singular : String) : Except Fault (List Field) := do
  if m.isSingleType then return [c.rootField "Query" singular [] (.named m.globalId)]
  let plural ← Naming.pluralOf m.globalId
  return [c.rootField "Query" singular [("id", .nonNull (.of "ID"))] (.named m.globalId),
    c.rootField "Query" (listName singular plural.text) (← c.listArgumentTypes)
      (.list (.named m.globalId))]

/-- A field as an entry of a field map. -/
def entryOf (f : Field) : String × Sdl.FieldShape := (f.key, f.shape)

/-- A list query is not named like the lookup. -/
theorem listName_ne (singular plural : String) : listName singular plural ≠ singular := by
  unfold listName
  split
  · intro h
    have hlength := congrArg String.length h
    rw [String.length_append] at hlength
    have : "List".length = 4 := rfl
    omega
  · next h => exact h

/-- The queries of a model are its query fields. -/
theorem queries_eq (m : Model) (singular : String) :
    c.queries m singular = List.map entryOf <$> c.queryFields m singular := by
  unfold queries queryFields
  cases m.isSingleType with
  | true => rfl
  | false =>
      cases Naming.pluralOf m.globalId with
      | error e => rfl
      | ok plural =>
          unfold listArguments listArgumentTypes
          cases c.config.listArguments.pairs with
          | error e => rfl
          | ok pairs =>
              have two : ∀ a b : Sdl.FieldShape,
                  Assoc.ofPairs [(singular, a), (listName singular plural.text, b)]
                    = [(singular, a), (listName singular plural.text, b)] := by
                intro a b
                show (if (singular == listName singular plural.text) = true then _ else _) = _
                rw [if_neg]
                · rfl
                · rw [beq_iff_eq]
                  exact (listName_ne singular plural.text).symm
              show Except.ok (Assoc.ofPairs [_, _]) = Except.ok [_, _]
              rw [two]
              unfold entryOf Field.shape rootField
              simp only [List.map_map]
              rfl

-- ============================================================ mutations

/-- The mutations of a model that are not suppressed. -/
def mutations (m : Model) (singular : String) : List (String × Inputs.Action) :=
  ((actions m).map fun a => (mutationName singular a, a)).filter fun (name, _) =>
    !c.isSuppressed "Mutation" name

/-- The field of a mutation. -/
def mutationField (m : Model) (e : String × Inputs.Action) : Field :=
  c.rootField "Mutation" e.1
    (if m.isSingleType && e.2 = .delete then []
      else [("input", .of (Inputs.mutationInputName e.1))])
    (.of (Inputs.payloadName e.1))

theorem shape_mutationField (m : Model) (e : String × Inputs.Action) :
    (c.mutationField m e).shape = mutationShape m e.1 e.2 := by
  unfold mutationField mutationShape rootField Field.shape
  split <;> rfl

/-- The types of the mutations of a model are written as they are
declared. -/
theorem payloads_eq {m : Model} {singular : String}
    (h : Naming.singularOf m.globalId = .ok singular) (mutations : List (String × Inputs.Action)) :
    (mutations.mapM fun (name, a) => Inputs.payloadArguments m m.globalId name (.str a.text))
      = .ok (mutations.map fun (name, a) => Declaration.texts
          (Inputs.mutationDeclarations m singular (Naming.upperFirst singular ++ "Input")
            name a)) := by
  have hinput : Naming.inputNameOf m.globalId = .ok (Naming.upperFirst singular ++ "Input") := by
    unfold Naming.inputNameOf
    rw [h]
    rfl
  refine mapM_eq_ok.2 ?_
  rw [List.forall₂_map_right_iff, List.forall₂_same]
  exact fun e _ => Inputs.payloadArguments_eq h hinput e.1 e.2

-- ============================================================== outline

/-- The lines of operations are those of their fields. -/
theorem renderOperations_eq (root : String) {fields : List Field}
    (h : ∀ f ∈ fields, f.metadata = Sdl.configuredMetadata (c.rootConfigurations root) f.key) :
    Sdl.renderOperations (fields.map entryOf) (c.rootConfigurations root)
      = String.intercalate "\n" (fields.map Field.line) := by
  unfold Sdl.renderOperations
  rw [List.map_map]
  refine congrArg (String.intercalate "\n") (List.map_congr_left fun f hf => ?_)
  show Sdl.applyMetadata _ (Sdl.configuredMetadata _ f.key) = Sdl.applyMetadata _ f.metadata
  rw [h f hf]

/-- Operations with their fields, if there are any. -/
theorem joined_operations (root : String) {fields : List Field}
    (h : ∀ f ∈ fields, f.metadata = Sdl.configuredMetadata (c.rootConfigurations root) f.key) :
    Joined "\n" (if (fields.map entryOf).isEmpty then []
      else [Sdl.renderOperations (fields.map entryOf) (c.rootConfigurations root)])
      (fields.map Field.line) := by
  rw [renderOperations_eq c root h]
  cases fields with
  | nil => exact Joined.refl _ []
  | cons f fields => exact Joined.single (List.cons_ne_nil _ _)

/-- What is said of a query field is what is configured. -/
theorem metadata_queryFields {m : Model} {singular : String} {fields : List Field}
    (h : c.queryFields m singular = .ok fields) {f : Field} (hf : f ∈ fields) :
    f.metadata = Sdl.configuredMetadata (c.rootConfigurations "Query") f.key := by
  unfold queryFields at h
  by_cases hsingle : m.isSingleType = true
  · rw [if_pos hsingle] at h
    cases h
    rw [List.mem_singleton] at hf
    subst hf
    rfl
  · rw [if_neg hsingle] at h
    obtain ⟨plural, _, h⟩ := bind_eq_ok.1 h
    obtain ⟨args, _, h⟩ := bind_eq_ok.1 h
    cases h
    rcases List.mem_cons.1 hf with rfl | hf
    · rfl
    · rw [List.mem_singleton] at hf
      subst hf
      rfl

/-- The texts of the input types of mutations, if there are mutations. -/
def inputTexts (m : Model) (mutations : List (String × Inputs.Action)) :
    Except Fault (List String) :=
  if mutations.isEmpty then pure []
  else List.singleton <$> Inputs.inputModel c.registry c.visibility m m.globalId false

/-- The declarations of the input types of mutations, if there are
mutations. -/
def inputsOf (m : Model) (mutations : List (String × Inputs.Action)) :
    Except Fault (List Declaration) :=
  if mutations.isEmpty then pure []
  else Inputs.inputDeclarations c.registry c.visibility m m.globalId false

theorem inputTexts_eq_ok {m : Model} {mutations : List (String × Inputs.Action)}
    {texts : List String} (h : c.inputTexts m mutations = .ok texts) :
    ∃ ds, c.inputsOf m mutations = .ok ds
      ∧ Joined "\n\n" texts (ds.map Declaration.text) := by
  unfold inputTexts at h
  unfold inputsOf
  split
  · next hempty =>
      rw [if_pos hempty] at h
      cases h
      exact ⟨[], rfl, Joined.refl _ _⟩
  · next hempty =>
      rw [if_neg hempty, Inputs.inputModel_eq] at h
      obtain ⟨text, htext, rfl⟩ := map_eq_ok.1 h
      obtain ⟨ds, hds, rfl⟩ := map_eq_ok.1 htext
      obtain ⟨_, _, _, _, _, rfl⟩ := Inputs.inputDeclarations_eq_ok _ _ hds
      exact ⟨_, hds, Joined.single (List.cons_ne_nil _ _)⟩

/-- The fragment of the operations that a model offers. -/
def offeredFragment (m : Model) (o : Offered) (inputs : List String) : Fragment :=
  let fields := o.mutations.map fun (name, a) => (name, mutationShape m name a)
  { definition := inputs ++ o.payloads
    objectTypes := o.mutations.map fun (name, _) => .ofText (Inputs.payloadName name)
    query :=
      if o.queries.isEmpty then []
      else [Sdl.renderOperations o.queries (c.rootConfigurations "Query")]
    mutation :=
      if fields.isEmpty then []
      else [Sdl.renderOperations fields (c.rootConfigurations "Mutation")] }

theorem operations_eq (m : Model) :
    c.operations m = do
      let o ← c.offered m
      return c.offeredFragment m o (← c.inputTexts m o.mutations) := by
  unfold operations inputTexts
  cases c.offered m with
  | error e => rfl
  | ok o =>
      show (if o.mutations.isEmpty = true then _ else _)
        = (if o.mutations.isEmpty = true then _ else _) >>= _
      split
      · rfl
      · cases Inputs.inputModel c.registry c.visibility m m.globalId false <;> rfl

/-- The operations of a model. -/
def operationsOutline (m : Model) : Except Fault Outline := do
  let singular ← Naming.singularOf m.globalId
  let queries ← c.queryFields m singular
  let mutations := c.mutations m singular
  return {
    declarations := (← c.inputsOf m mutations) ++ mutations.flatMap fun (name, a) =>
      Inputs.mutationDeclarations m singular (Naming.upperFirst singular ++ "Input") name a
    queries := queries.filter fun f => !c.isSuppressed "Query" f.key
    mutations := mutations.map (c.mutationField m)
    objectTypes := mutations.map fun (name, _) => .ofText (Inputs.payloadName name) }

/-- The operations of a model are written as they are outlined. -/
theorem operations_eq_ok {m : Model} {f : Fragment} (h : c.operations m = .ok f) :
    ∃ o, c.operationsOutline m = .ok o ∧ o.Renders f := by
  rw [operations_eq] at h
  obtain ⟨offered, hoffered, h⟩ := bind_eq_ok.1 h
  obtain ⟨texts, htexts, h⟩ := bind_eq_ok.1 h
  cases h
  obtain ⟨singular, hsingular, hoffered⟩ := bind_eq_ok.1 hoffered
  obtain ⟨entries, hentries, hoffered⟩ := bind_eq_ok.1 hoffered
  obtain ⟨payloads, hpayloads, hoffered⟩ := bind_eq_ok.1 hoffered
  cases hoffered
  rw [queries_eq] at hentries
  obtain ⟨fields, hfields, rfl⟩ := map_eq_ok.1 hentries
  change ((c.mutations m singular).mapM fun e =>
    Inputs.payloadArguments m m.globalId e.1 (.str e.2.text)) = _ at hpayloads
  rw [payloads_eq hsingular] at hpayloads
  cases hpayloads
  obtain ⟨inputs, hinputs, hjoined⟩ := c.inputTexts_eq_ok htexts
  refine ⟨_, bind_eq_ok.2 ⟨singular, hsingular, bind_eq_ok.2 ⟨fields, hfields,
    bind_eq_ok.2 ⟨inputs, hinputs, rfl⟩⟩⟩, ?_, ?_, ?_, rfl⟩
  · show Joined _ (texts ++ (c.mutations m singular).map _) ((inputs ++ _).map _)
    rw [List.map_append, List.map_flatMap]
    refine hjoined.append (Joined.rows _ fun e => ?_)
    simp [Inputs.mutationDeclarations]
  · have filtered : ((fields.map entryOf).filter fun e => !c.isSuppressed "Query" e.1)
        = (fields.filter fun f => !c.isSuppressed "Query" f.key).map entryOf :=
      List.filter_map
    show Joined _ (if ((fields.map entryOf).filter fun e => !c.isSuppressed "Query" e.1).isEmpty
      then [] else [Sdl.renderOperations _ _]) _
    rw [filtered]
    exact c.joined_operations "Query" fun f hf =>
      c.metadata_queryFields hfields (List.mem_of_mem_filter hf)
  · have shapes : ((c.mutations m singular).map fun e => (e.1, mutationShape m e.1 e.2))
        = ((c.mutations m singular).map (c.mutationField m)).map entryOf := by
      rw [List.map_map]
      refine List.map_congr_left fun e _ => ?_
      show _ = (e.1, (c.mutationField m e).shape)
      rw [shape_mutationField]
    show Joined _ (if ((c.mutations m singular).map fun e => (e.1, mutationShape m e.1 e.2)).isEmpty
      then [] else [Sdl.renderOperations
        ((c.mutations m singular).map fun e => (e.1, mutationShape m e.1 e.2)) _]) _
    rw [shapes]
    refine c.joined_operations "Mutation" fun f hf => ?_
    obtain ⟨e, _, rfl⟩ := List.mem_map.1 hf
    rfl

end ModelSchema.Compiler
