/-
Why a document describes no schema. What is wrong with it is that it is no
valid schema, or that an argument of a directive is of the wrong kind: no
part of the way from a document to its schema fails for anything else
(`schema_faults`), be it the literal of a default, a field of a type or a
directive.
-/
import ModelSchema.Graphql.Schema.Reading

namespace ModelSchema.Graphql

/-- The faults of documents that describe no schema. -/
def schemaFaults : List Fault := [.invalidSchema, .badDirectiveArgument]

/-- Whether a step fails for such a fault alone. -/
def Refuses {α : Type} (x : Except Fault α) : Prop := ∀ f, x = .error f → f ∈ schemaFaults

/-- Whether work on fields does, whatever is found out already. -/
def RefusesFields {α : Type} (work : FieldWork α) : Prop := ∀ known, Refuses (work known)

section

variable {α β : Type} {x : Except Fault α} {f : α → Except Fault β} {work : FieldWork α}
  {next : α → FieldWork β}

-- ================================================================= steps

theorem refuses_ok (a : α) : Refuses (.ok a) := fun _ h => nomatch h

theorem refuses_error {e : Fault} (h : e ∈ schemaFaults) : Refuses (.error e : Except Fault α) := by
  intro f hf
  cases hf
  exact h

theorem Refuses.bind (h : Refuses x) (hf : ∀ a, Refuses (f a)) : Refuses (x >>= f) := by
  cases x with
  | error e => exact refuses_error (h e rfl)
  | ok a => exact hf a

theorem refuses_forM {as : List α} {step : α → Except Fault PUnit} (h : ∀ a ∈ as, Refuses (step a)) :
    Refuses (as.forM step) := by
  induction as with
  | nil => exact refuses_ok _
  | cons a as ih =>
      exact (h a List.mem_cons_self).bind fun _ => ih fun b hb => h b (List.mem_cons_of_mem a hb)

theorem refusesFields_pure (a : α) : RefusesFields (pure a) := fun _ => refuses_ok _

theorem refusesFields_throw : RefusesFields (throw .invalidSchema : FieldWork α) :=
  fun _ => refuses_error List.mem_cons_self

theorem RefusesFields.bind (h : RefusesFields work) (hnext : ∀ a, RefusesFields (next a)) :
    RefusesFields (work >>= next) := fun known => (h known).bind fun r => hnext r.1 r.2

theorem RefusesFields.map (h : RefusesFields work) (g : α → β) : RefusesFields (g <$> work) := by
  rw [map_eq_pure_bind]
  exact h.bind fun a => refusesFields_pure (g a)

theorem refusesFields_certain (h : Refuses x) : RefusesFields (Document.certain x) :=
  fun _ => h.bind fun _ => refuses_ok _

theorem refusesFields_mapM {as : List α} {step : α → FieldWork β}
    (h : ∀ a ∈ as, RefusesFields (step a)) : RefusesFields (as.mapM step) := by
  induction as with
  | nil =>
      rw [List.mapM_nil]
      exact refusesFields_pure _
  | cons a as ih =>
      rw [List.mapM_cons]
      refine (h a List.mem_cons_self).bind fun b => ?_
      exact (ih fun c hc => h c (List.mem_cons_of_mem a hc)).bind fun bs => refusesFields_pure _

theorem refusesFields_forM {as : List α} {step : α → FieldWork PUnit}
    (h : ∀ a ∈ as, RefusesFields (step a)) : RefusesFields (as.forM step) := by
  induction as with
  | nil => exact refusesFields_pure _
  | cons a as ih =>
      exact (h a List.mem_cons_self).bind fun _ => ih fun b hb => h b (List.mem_cons_of_mem a hb)

end

-- =============================================================== literals

section

variable {types : InputTypes} {given : List (String × Reader)}

/-- Whether a literal that waits for its type is refused for such faults
alone. -/
def Reader.Refuses (read : Reader) : Prop := ∀ t, RefusesFields (read t)

theorem refusesFields_leafAt (v : Literal) (name : String) : RefusesFields (leafAt types v name) := by
  unfold leafAt
  cases types.kind name with
  | output => exact refusesFields_throw
  | _ => exact refusesFields_pure _

theorem refusesFields_fillFields (hgiven : ∀ e ∈ given, e.2.Refuses) (fields : List InputField) :
    RefusesFields (fillFields given fields) := by
  induction fields with
  | nil => exact refusesFields_pure _
  | cons field rest ih =>
      rw [fillFields]
      split
      · next read hread =>
          have hmem : (field.name, read) ∈ given := by
            obtain ⟨before, after, rfl, _⟩ := List.lookup_eq_some_iff.1 hread
            exact List.mem_append_right before List.mem_cons_self
          refine (hgiven _ hmem field.type).bind fun v => ?_
          split
          · exact refusesFields_pure _
          · exact ih.bind fun _ => refusesFields_pure _
      · split
        · split
          · exact refusesFields_pure _
          · exact ih
        · exact ih.bind fun _ => refusesFields_pure _

theorem refusesFields_objectAt (hfields : ∀ name, RefusesFields (types.fields name))
    (hgiven : ∀ e ∈ given, e.2.Refuses) (v : Literal) (name : String) :
    RefusesFields (objectAt types given v name) := by
  unfold objectAt
  split
  · exact (hfields name).bind fun fields =>
      (refusesFields_fillFields hgiven fields).bind fun _ => refusesFields_pure _
  · exact refusesFields_leafAt v name

theorem refuses_itemAt {named : String → FieldWork Coerced} (h : ∀ name, RefusesFields (named name)) :
    (itemAt named).Refuses := by
  intro t
  induction t with
  | named name => exact h name
  | list item ih => exact ih.map Coerced.asList
  | nonNull inner ih => exact ih

theorem refusesFields_itemsAt {items : List Reader} (h : ∀ read ∈ items, read.Refuses)
    (item : TypeExpr) : RefusesFields (itemsAt item items) := by
  induction items with
  | nil => exact refusesFields_pure _
  | cons read rest ih =>
      rw [itemsAt]
      refine (h read List.mem_cons_self item).bind fun v => ?_
      split
      · exact refusesFields_pure _
      · exact ih fun r hr => h r (List.mem_cons_of_mem read hr)

theorem refuses_listAt {items : List Reader} {named : String → FieldWork Coerced}
    (hitems : ∀ read ∈ items, read.Refuses) (h : ∀ name, RefusesFields (named name)) :
    (listAt items named).Refuses := by
  intro t
  induction t with
  | named name => exact h name
  | list item ih => exact refusesFields_itemsAt hitems item
  | nonNull inner ih => exact ih

mutual

/-- Reading a literal as a value of a type fails for such faults alone. -/
theorem refuses_coerce (hfields : ∀ name, RefusesFields (types.fields name)) :
    ∀ v : Literal, (v.coerce types).Refuses
  | .null => fun t => refusesFields_pure _
  | .list items => by
      rw [Literal.coerce]
      exact refuses_listAt (refuses_coerceItems hfields items) (refusesFields_leafAt _)
  | .object fields => by
      rw [Literal.coerce]
      exact refuses_itemAt
        (refusesFields_objectAt hfields (refuses_coerceFields hfields fields) _)
  | .variable _ | .int _ | .float _ | .string _ | .bool _ | .enum _ =>
      refuses_itemAt (refusesFields_leafAt _)

theorem refuses_coerceItems (hfields : ∀ name, RefusesFields (types.fields name)) :
    ∀ vs : List Literal, ∀ read ∈ coerceItems types vs, read.Refuses
  | [] => fun _ hread => nomatch hread
  | v :: rest => by
      rw [coerceItems]
      exact List.forall_mem_cons.2 ⟨refuses_coerce hfields v, refuses_coerceItems hfields rest⟩

theorem refuses_coerceFields (hfields : ∀ name, RefusesFields (types.fields name)) :
    ∀ vs : List (String × Literal), ∀ e ∈ coerceFields types vs, e.2.Refuses
  | [] => fun _ he => nomatch he
  | (name, v) :: rest => by
      rw [coerceFields]
      exact List.forall_mem_cons.2 ⟨refuses_coerce hfields v, refuses_coerceFields hfields rest⟩

end

end

namespace Document

variable (d : Document)

-- ================================================================= fields

theorem refuses_demand (condition : Bool) : Refuses (demand condition) := by
  unfold demand
  split
  · exact refuses_ok _
  · exact refuses_error List.mem_cons_self

theorem refuses_deprecation (ds : List Directive) : Refuses (deprecation ds) := by
  unfold deprecation
  split
  · exact refuses_ok _
  · split
    · exact refuses_ok _
    · exact refuses_ok _
    · exact refuses_ok _
    · exact refuses_error (by decide)

theorem refuses_checkSpecification (ds : List Directive) : Refuses (checkSpecification ds) := by
  unfold checkSpecification
  split
  · exact refuses_ok _
  · split
    · exact refuses_ok _
    · exact refuses_error (by decide)

theorem refusesFields_inputField {types : InputTypes}
    (hfields : ∀ name, RefusesFields (types.fields name)) (v : InputValue) :
    RefusesFields (d.inputField types v) := by
  have rest : ∀ default, RefusesFields (do
      let deprecation ← certain (deprecation v.directives)
      certain (demand (d.isInput v.type))
      return ({ name := v.name, description := v.description, type := v.type,
                deprecation := deprecation, default := default } : InputField)) := by
    intro default
    refine (refusesFields_certain (refuses_deprecation _)).bind fun _ => ?_
    exact (refusesFields_certain (refuses_demand _)).bind fun _ => refusesFields_pure _
  unfold inputField
  cases v.default with
  | none => exact rest .nothing
  | some literal => exact (refuses_coerce hfields literal v.type).bind rest

theorem refusesFields_inputFields (room : Nat) (name : String) :
    RefusesFields (d.inputFields room name) := by
  induction room generalizing name with
  | zero => exact refusesFields_throw
  | succ room ih =>
      rw [inputFields]
      refine RefusesFields.bind (fun known => refuses_ok _) fun known => ?_
      split
      · exact refusesFields_pure _
      · refine (refusesFields_mapM fun v _ => d.refusesFields_inputField ih v).bind fun fields => ?_
        exact RefusesFields.bind (fun known => refuses_ok _) fun _ => refusesFields_pure _

theorem refusesFields_inputTypes (name : String) : RefusesFields (d.inputTypes.fields name) :=
  d.refusesFields_inputFields _ name

theorem refusesFields_argument (v : InputValue) : RefusesFields (d.argument v) :=
  (d.refusesFields_inputField d.refusesFields_inputTypes v).bind fun _ => refusesFields_pure _

theorem refusesFields_outputField (f : FieldDefinition) : RefusesFields (d.outputField f) := by
  unfold outputField
  refine (refusesFields_mapM fun v _ => d.refusesFields_argument v).bind fun _ => ?_
  refine (refusesFields_certain (refuses_deprecation _)).bind fun _ => ?_
  exact (refusesFields_certain (refuses_demand _)).bind fun _ => refusesFields_pure _

-- ============================================================ all the types

theorem refuses_checkEarly (t : TypeDefinition) : Refuses (d.checkEarly t) := by
  unfold checkEarly
  split
  · exact refuses_checkSpecification _
  · refine refuses_forM fun v _ => ?_
    exact (refuses_deprecation v.directives).bind fun _ => refuses_ok _
  · exact refuses_ok _

theorem refusesFields_schemaBody (name : String) (body : TypeBody) :
    RefusesFields (d.schemaBody name body) := by
  have kinds : ∀ kind names, RefusesFields (certain (d.demandKind kind names)) :=
    fun kind names => refusesFields_certain (refuses_demand _)
  have fields : ∀ fields : List FieldDefinition, RefusesFields (fields.mapM d.outputField) :=
    fun fields => refusesFields_mapM fun f _ => d.refusesFields_outputField f
  cases body with
  | scalar => exact refusesFields_pure _
  | object above own => exact (kinds _ _).bind fun _ => (fields own).bind fun _ => refusesFields_pure _
  | interface above own =>
      exact (kinds _ _).bind fun _ => (fields own).bind fun _ => refusesFields_pure _
  | union members => exact (kinds _ _).bind fun _ => refusesFields_pure _
  | enum values => exact refusesFields_pure _
  | input own => exact (d.refusesFields_inputTypes name).bind fun _ => refusesFields_pure _

theorem refusesFields_schemaTypes : RefusesFields d.schemaTypes := by
  refine (refusesFields_forM fun dir _ => ?_).bind fun _ => refusesFields_mapM fun t _ => ?_
  · exact (refusesFields_mapM fun v _ => d.refusesFields_argument v).map _
  · exact (d.refusesFields_schemaBody _ _).bind fun _ => refusesFields_pure _

/-- A document that describes no schema is refused as no valid schema, or
for an argument of a directive. -/
theorem schema_faults {f : Fault} (h : d.schema = .error f) : f ∈ schemaFaults := by
  have hrefuses : Refuses d.schema := by
    refine (refuses_demand _).bind fun _ => ?_
    refine (refuses_forM fun t _ => d.refuses_checkEarly t).bind fun _ => ?_
    refine Refuses.bind ?_ fun _ => refuses_ok _
    exact (d.refusesFields_schemaTypes []).bind fun _ => refuses_ok _
  exact hrefuses f h

end Document

end ModelSchema.Graphql
