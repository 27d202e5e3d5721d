/-
The input types of a model and the types of its mutations as declarations.
Their fields are made with their types still apart, and each text that the
compiler writes is their rendering (`inputModel_eq`,
`payloadArguments_eq`).
-/
import ModelSchema.Proofs.Outline.Declaration
import ModelSchema.Proofs.Run

namespace ModelSchema

open Declaration (Field)

-- ======================================================= typed fields

namespace Inputs

variable (r : Registry) (visibility : Visibility)

/-- The exposed attributes with their types, which are not written yet. -/
def fieldTypes (m : Model) (mode : Mode) : Except Fault (List (String × TypeRef)) :=
  (exposed visibility m).mapM fun (name, a) => do
    return (name, ← a.typeRef r m.globalId name mode)

/-- A field whose type is written. -/
def writtenField (e : String × TypeRef) : String × Sdl.FieldShape := (e.1, { type := e.2.text })

/-- A field without arguments of which nothing is said. -/
def plainField (e : String × TypeRef) : Field := { key := e.1, type := e.2 }

/-- The fields of a model are its typed fields, written. -/
theorem fields_eq (m : Model) (mode : Mode) :
    fields r visibility m mode = List.map writtenField <$> fieldTypes r visibility m mode := by
  unfold fields fieldTypes
  rw [← mapM_map_result]
  congr 1
  funext ⟨name, a⟩
  show (a.typeRef r m.globalId name mode >>= fun t => pure (name, { type := t.text }))
    = writtenField <$> (a.typeRef r m.globalId name mode >>= fun t => pure (name, t))
  cases a.typeRef r m.globalId name mode <;> rfl

theorem line_plainField (e : String × TypeRef) :
    (plainField e).line = e.1 ++ ": " ++ e.2.text := by
  show "" ++ (e.1 ++ "" ++ ": " ++ e.2.text) ++ "" = _
  rw [String.empty_append, String.append_empty, String.append_empty]

/-- Plain fields are written as a field map without configurations. -/
theorem lines_plainFields (types : List (String × TypeRef)) :
    Declaration.lines (types.map plainField)
      = Sdl.renderFields (types.map writtenField) [] none := by
  unfold Declaration.lines Sdl.renderFields
  rw [List.map_map, List.map_map]
  rfl

/-- Putting typed fields and writing them may be done in either order. -/
theorem written_put (e : String × TypeRef) (types : List (String × TypeRef)) :
    (Assoc.put e.1 e.2 types).map writtenField
      = Assoc.put (writtenField e).1 (writtenField e).2 (types.map writtenField) := by
  induction types with
  | nil => rfl
  | cons t types ih =>
      rw [List.map_cons, Assoc.put, Assoc.put]
      show _ = if t.1 == e.1 then _ else _
      split
      · rfl
      · rw [List.map_cons, ih]

theorem written_putAll (types added : List (String × TypeRef)) :
    (Assoc.putAll types added).map writtenField
      = Assoc.putAll (types.map writtenField) (added.map writtenField) := by
  induction added generalizing types with
  | nil => rfl
  | cons e added ih => rw [Assoc.putAll_cons, ih, written_put, List.map_cons, Assoc.putAll_cons]

-- ========================================================= input types

/-- The field of a type that would be without fields. -/
def placeholderType : String × TypeRef := ("_", .of "String")

/-- The identifier by which entities are updated in place. -/
def optionalId : String × TypeRef := ("id", .of "ID")

/-- The typed fields of the two input types of a model. -/
def inputTypes (m : Model) (name : Value) (allowIds : Bool) :
    Except Fault (List (String × TypeRef) × List (String × TypeRef)) :=
  if (exposed visibility m).isEmpty then
    pure ([placeholderType], if allowIds then [optionalId] else [placeholderType])
  else do
    let create ← fieldTypes r visibility m .write
    let edit ← fieldTypes r visibility (afterInputModel r visibility m name) .update
    return (create, if allowIds then Assoc.putAll [optionalId] edit else edit)

/-- The declarations of the two input types of a name. -/
def inputPair (inputName : String) (create edit : List (String × TypeRef)) : List Declaration :=
  [⟨.str inputName, .input (create.map plainField)⟩,
    ⟨.str ("edit" ++ inputName), .input (edit.map plainField)⟩]

/-- The two input types of a model. -/
def inputDeclarations (m : Model) (name : Value) (allowIds : Bool) :
    Except Fault (List Declaration) := do
  let inputName ← Naming.inputNameOf name
  let (create, edit) ← inputTypes r visibility m name allowIds
  return inputPair inputName create edit

/-- The input types of a model are written as they are declared. -/
theorem inputModel_eq (m : Model) (name : Value) (allowIds : Bool) :
    inputModel r visibility m name allowIds
      = Declaration.texts <$> inputDeclarations r visibility m name allowIds := by
  unfold inputModel inputDeclarations
  cases hname : Naming.inputNameOf name with
  | error e => rfl
  | ok inputName =>
      unfold inputTypes
      by_cases hexposed : (exposed visibility m).isEmpty = true
      · rw [if_pos hexposed]
        show (if (exposed visibility m).isEmpty = true then _ else _) = _
        rw [if_pos hexposed]
        cases allowIds <;> rfl
      · rw [if_neg hexposed, fields_eq, fields_eq]
        show (if (exposed visibility m).isEmpty = true then _ else _) = _
        rw [if_neg hexposed]
        cases fieldTypes r visibility m .write with
        | error e => rfl
        | ok create =>
            cases fieldTypes r visibility (afterInputModel r visibility m name) .update with
            | error e => rfl
            | ok edit =>
                cases allowIds with
                | false =>
                    show Except.ok (String.intercalate "\n\n" [Sdl.renderBlock "input" _
                      (Sdl.renderFields (create.map writtenField) [] none) "",
                      Sdl.renderBlock "input" _
                      (Sdl.renderFields (edit.map writtenField) [] none) ""]) = _
                    rw [← lines_plainFields, ← lines_plainFields]
                    rfl
                | true =>
                    show Except.ok (String.intercalate "\n\n" [_, Sdl.renderBlock "input" _
                      (Sdl.renderFields (Assoc.putAll ([optionalId].map writtenField)
                        (edit.map writtenField)) [] none) ""]) = _
                    rw [← written_putAll, ← lines_plainFields, ← lines_plainFields]
                    rfl

/-- A model has both its input types, or none at all. -/
theorem inputDeclarations_eq_ok {m : Model} {name : Value} {allowIds : Bool}
    {ds : List Declaration} (h : inputDeclarations r visibility m name allowIds = .ok ds) :
    ∃ inputName create edit, Naming.inputNameOf name = .ok inputName
      ∧ inputTypes r visibility m name allowIds = .ok (create, edit)
      ∧ ds = inputPair inputName create edit := by
  obtain ⟨inputName, hname, h⟩ := bind_eq_ok.1 h
  obtain ⟨⟨create, edit⟩, htypes, h⟩ := bind_eq_ok.1 h
  cases h
  exact ⟨inputName, create, edit, hname, htypes, rfl⟩

-- =================================================== types of mutations

/-- The typed arguments of a mutation, none if it takes no argument. -/
def argumentTypes (m : Model) (inputName : String) : Action → List (String × TypeRef)
  | .create => [("data", .of inputName)]
  | .update =>
      (if m.isSingleType then [] else [("where", .of "InputID")])
        ++ [("data", .of ("edit" ++ inputName))]
  | .delete => if m.isSingleType then [] else [("where", .of "InputID")]

/-- Only the deletion of a single type takes no argument. -/
theorem isEmpty_argumentTypes (m : Model) (inputName : String) (action : Action) :
    (argumentTypes m inputName action).isEmpty = (m.isSingleType && action = .delete) := by
  unfold argumentTypes
  cases action <;> cases m.isSingleType <;> rfl

/-- The payload type of a mutation. -/
def payloadDeclaration (m : Model) (singular mutation : String) : Declaration :=
  ⟨.str (payloadName mutation), .object "" [plainField (singular, .named m.globalId)]⟩

/-- The argument type of a mutation, if it takes an argument, and its
payload type. -/
def mutationDeclarations (m : Model) (singular inputName mutation : String) (action : Action) :
    List Declaration :=
  let arguments := argumentTypes m inputName action
  (if arguments.isEmpty then []
    else [⟨.str (mutationInputName mutation), .input (arguments.map plainField)⟩])
    ++ [payloadDeclaration m singular mutation]

theorem ofWord?_text (action : Action) : Action.ofWord? (.str action.text) = some action := by
  cases action <;> rfl

/-- The lines of the arguments of a mutation are their fields. -/
theorem argumentLines?_eq (m : Model) (inputName : String) (action : Action) :
    argumentLines? m inputName action
      = let arguments := argumentTypes m inputName action
        if arguments.isEmpty then none
        else some (Declaration.lines (arguments.map plainField)) := by
  have whereLine : (plainField ("where", .of "InputID")).line = "where: InputID" := rfl
  have dataLine : (plainField ("data", .of inputName)).line = "data: " ++ inputName :=
    line_plainField _
  have editLine : (plainField ("data", .of ("edit" ++ inputName))).line
      = "data: edit" ++ inputName := by
    rw [line_plainField]
    show "data" ++ ": " ++ ("edit" ++ inputName) = _
    rw [← String.append_assoc]
    rfl
  unfold argumentLines? argumentTypes Declaration.lines
  cases action with
  | create =>
      simp only [List.map_singleton, dataLine, String.intercalate_singleton]
      rfl
  | update =>
      cases m.isSingleType with
      | false =>
          simp only [Bool.false_eq_true, if_false, List.singleton_append, List.map_cons,
            List.map_nil, whereLine, editLine, String.intercalate_cons_cons,
            String.intercalate_singleton]
          rfl
      | true =>
          simp only [if_true, List.nil_append, List.map_singleton, editLine,
            String.intercalate_singleton]
          show some ("" ++ ("data: edit" ++ inputName)) = _
          rw [String.empty_append]
          rfl
  | delete => cases m.isSingleType <;> rfl

/-- The types of a mutation are written as they are declared. -/
theorem payloadArguments_eq {m : Model} {name : Value} {singular inputName : String}
    (hsingular : Naming.singularOf name = .ok singular)
    (hinput : Naming.inputNameOf name = .ok inputName) (mutation : String) (action : Action) :
    payloadArguments m name mutation (.str action.text)
      = .ok (Declaration.texts (mutationDeclarations m singular inputName mutation action)) := by
  have payload : (payloadDeclaration m singular mutation).text
      = Sdl.renderBlock "type" (payloadName mutation) (singular ++ ": " ++ m.globalId.text) "" := by
    show Sdl.renderBlock "type" _ (Declaration.lines [plainField _]) "" = _
    rw [Declaration.lines, List.map_singleton, String.intercalate_singleton, line_plainField]
    rfl
  refine bind_eq_ok.2 ⟨singular, hsingular, bind_eq_ok.2 ⟨inputName, hinput, ?_⟩⟩
  unfold mutationDeclarations
  dsimp only
  rw [ofWord?_text]
  dsimp only
  rw [argumentLines?_eq]
  by_cases hnone : (argumentTypes m inputName action).isEmpty = true
  · simp only [hnone, if_true]
    rw [List.nil_append, Declaration.texts, List.map_singleton, String.intercalate_singleton,
      payload]
    rfl
  · simp only [hnone]
    rw [Declaration.texts]
    show Except.ok (String.intercalate "\n\n" [_, _]) = _
    rw [← payload]
    rfl

end Inputs

end ModelSchema
