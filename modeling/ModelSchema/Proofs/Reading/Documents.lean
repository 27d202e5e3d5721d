/-
What declarations are read as. A declaration whose names may stand in a
document is read as the definition that it stands for, and declarations
one after another as a document (`parse_texts`). Only a value of an enum
that is kept for other values is refused; the rest of a document does not
depend on what is said in it.
-/
import ModelSchema.Proofs.Reading.Parsing

namespace ModelSchema

-- ============================================================== metadata

namespace Sdl.Metadata

open Graphql (Token Directive FieldDefinition InputValue TypeExpr)
open Graphql.Parser

variable (m : Metadata)

/-- A description as it is read back. -/
def said : Option String :=
  if m.description.isGiven then some (fieldDenoted m.description.text) else none

/-- The directives that a deprecation is read as. -/
def directives : List Directive :=
  if m.deprecated.isGiven then [deprecatedDirective m.deprecated.text] else []

theorem descriptionTokens_eq : m.descriptionTokens = (m.said.map .blockString).toList := by
  unfold descriptionTokens said
  split <;> rfl

variable {fuel : Nat} {rest : List Token}

/-- A deprecation is read as its directives. -/
theorem constDirectives_eq (hfuel : 1 < fuel) (hrest : current rest ≠ .punct .at) :
    constDirectives fuel (upon (m.deprecationTokens ++ rest)) = .ok (m.directives, upon rest) := by
  unfold deprecationTokens directives constDirectives
  by_cases hgiven : m.deprecated.isGiven = true
  · rw [if_pos hgiven, if_pos hgiven]
    cases fuel with
    | zero => cases hfuel
    | succ fuel =>
        have hnext : 0 < fuel := Nat.lt_of_succ_lt_succ hfuel
        show Graphql.Parser.directives true maxNesting (fuel + 1) (fuel + 1)
          (upon (.punct .at :: .name "deprecated" :: .punct .parenL :: .name "reason"
            :: .punct .colon :: .string _ :: .punct .parenR :: rest)) = _
        unfold Graphql.Parser.directives
        rw [bind_eq_of_ok (peek_cons _ _), if_pos rfl,
          bind_eq_of_ok (directive_eq_deprecated hfuel _ _),
          bind_eq_of_ok (directives_eq_nil hnext hrest)]
        rfl
  · rw [if_neg hgiven, if_neg hgiven]
    exact directives_eq_nil (Nat.lt_of_succ_lt hfuel) hrest

/-- What follows a type in the tokens of a field. -/
theorem ne_of_current_deprecationTokens (hrest : endsItem (current rest) = true) :
    current (m.deprecationTokens ++ rest) ≠ .punct .bang
      ∧ current (m.deprecationTokens ++ rest) ≠ .punct .equals := by
  unfold deprecationTokens
  split
  · exact ⟨fun h => (by cases h), fun h => (by cases h)⟩
  · exact ⟨ne_punct_of_endsItem hrest (by decide), ne_punct_of_endsItem hrest (by decide)⟩

/-- A field is read as its parts. -/
theorem fieldDefinition_eq (name : String) {list type : List Token} {args : List InputValue}
    {t : TypeExpr} (hfuel : 1 < fuel) (hrest : endsItem (current rest) = true)
    (hlist : ∀ rest, current rest ≠ .punct .parenL →
      argumentDefinitions fuel (upon (list ++ rest)) = .ok (args, upon rest))
    (htype : ∀ rest, current rest ≠ .punct .bang →
      typeExpr (upon (type ++ rest)) = .ok (t, upon rest)) :
    fieldDefinition fuel (upon (m.descriptionTokens ++ (.name name :: (list ++ (.punct .colon
        :: (type ++ m.deprecationTokens)))) ++ rest))
      = .ok (⟨m.said, name, args, t, m.directives⟩, upon rest) := by
  have hafter := m.ne_of_current_deprecationTokens hrest
  have hat : current rest ≠ .punct .at := ne_punct_of_endsItem hrest (by decide)
  have htokens : m.descriptionTokens ++ (.name name :: (list ++ (.punct .colon
        :: (type ++ m.deprecationTokens)))) ++ rest
      = (m.said.map .blockString).toList ++ (.name name :: (list ++ (.punct .colon
        :: (type ++ (m.deprecationTokens ++ rest))))) := by
    rw [descriptionTokens_eq]
    simp
  have hcolon : current (Token.punct .colon :: (type ++ (m.deprecationTokens ++ rest)))
      ≠ .punct .parenL := fun h => (by cases h)
  rw [htokens]
  unfold fieldDefinition
  rw [bind_eq_of_ok (description_eq _ rfl), bind_eq_of_ok (name_eq _ _),
    bind_eq_of_ok (hlist _ hcolon), bind_eq_of_ok (mark_eq _ _),
    bind_eq_of_ok (htype _ hafter.1), bind_eq_of_ok (m.constDirectives_eq hfuel hat)]
  rfl

end Sdl.Metadata

namespace Declaration

open Graphql (Token TypeExpr Directive FieldDefinition InputValue EnumValue SyntaxFault Definition)
open Graphql.Parser

namespace Field

-- =============================================================== fields

theorem startsItem_tokens (f : Field) : ∃ t ts, f.tokens = t :: ts ∧ startsItem t = true := by
  unfold tokens Sdl.Metadata.descriptionTokens
  split
  · exact ⟨_, _, rfl, rfl⟩
  · exact ⟨_, _, rfl, rfl⟩

/-- A field of an input type as it is read back. -/
def inputValue (f : Field) : InputValue :=
  ⟨f.metadata.said, f.key, f.type.expr, none, f.metadata.directives⟩

/-- An argument as it is read back. -/
def argumentValue (e : String × TypeRef) : InputValue := ⟨none, e.1, e.2.expr, none, []⟩

/-- A field of an object type as it is read back. -/
def definition (f : Field) : FieldDefinition :=
  ⟨f.metadata.said, f.key, f.args.map argumentValue, f.type.expr, f.metadata.directives⟩

end Field

open Declaration.Field (argumentValue)

-- ===================================================== arguments, fields

variable {fuel : Nat} {rest : List Token}

/-- An input value is read as its parts. -/
theorem inputValue_eq_of (said : Option String) (key : String) {type tail : List Token}
    {t : TypeExpr} {ds : List Directive}
    (htype : typeExpr (upon (type ++ (tail ++ rest))) = .ok (t, upon (tail ++ rest)))
    (hds : constDirectives fuel (upon (tail ++ rest)) = .ok (ds, upon rest))
    (hequals : current (tail ++ rest) ≠ .punct .equals) :
    inputValue fuel (upon ((said.map .blockString).toList
        ++ (.name key :: .punct .colon :: (type ++ (tail ++ rest)))))
      = .ok (⟨said, key, t, none, ds⟩, upon rest) := by
  unfold inputValue
  rw [bind_eq_of_ok (description_eq said rfl), bind_eq_of_ok (name_eq _ _),
    bind_eq_of_ok (mark_eq _ _), bind_eq_of_ok htype,
    bind_eq_of_ok (optionalMark_eq_false hequals)]
  show (constDirectives fuel >>= fun ds => pure (⟨_, _, _, none, ds⟩ : InputValue)) _ = _
  rw [bind_eq_of_ok hds]
  rfl

/-- One of which nothing is said is so, too. -/
theorem inputValue_eq_plain (key : String) {type : List Token} {t : TypeExpr} (hfuel : 0 < fuel)
    (hrest : endsItem (current rest) = true)
    (htype : typeExpr (upon (type ++ rest)) = .ok (t, upon rest)) :
    inputValue fuel (upon (.name key :: .punct .colon :: (type ++ rest)))
      = .ok (⟨none, key, t, none, []⟩, upon rest) := by
  have hat : current rest ≠ .punct .at := ne_punct_of_endsItem hrest (by decide)
  have hequals : current rest ≠ .punct .equals := ne_punct_of_endsItem hrest (by decide)
  have hnone : constDirectives fuel (upon ([] ++ rest)) = .ok ([], upon rest) :=
    constDirectives_eq_nil hfuel hat
  have hread : inputValue fuel (upon ((Option.map Token.blockString none).toList
      ++ (.name key :: .punct .colon :: (type ++ ([] ++ rest)))))
      = .ok (⟨none, key, t, none, []⟩, upon rest) :=
    inputValue_eq_of none key htype hnone hequals
  exact hread

theorem inputValue_eq_argument {e : String × TypeRef} (h : e.2.expr.Readable) (hfuel : 0 < fuel)
    (hrest : endsItem (current rest) = true) :
    inputValue fuel (upon (argumentTokens e ++ rest)) = .ok (argumentValue e, upon rest) :=
  inputValue_eq_plain e.1 hfuel hrest (typeExpr_eq h (ne_punct_of_endsItem hrest (by decide)))

namespace Field

variable {f : Field}

/-- A field without arguments is read as a field of an input type. -/
theorem inputValue_eq (h : f.WellNamed) (hargs : f.args = []) (hfuel : 1 < fuel)
    (hrest : endsItem (current rest) = true) :
    Graphql.Parser.inputValue fuel (upon (f.tokens ++ rest)) = .ok (f.inputValue, upon rest) := by
  have hafter := f.metadata.ne_of_current_deprecationTokens hrest
  have hat : current rest ≠ .punct .at := ne_punct_of_endsItem hrest (by decide)
  have htokens : f.tokens ++ rest = (f.metadata.said.map .blockString).toList ++ (.name f.key
      :: .punct .colon :: (f.type.expr.tokens ++ (f.metadata.deprecationTokens ++ rest))) := by
    unfold tokens argumentTokens
    rw [Sdl.Metadata.descriptionTokens_eq, hargs]
    simp
  rw [htokens]
  exact inputValue_eq_of _ _ (typeExpr_eq h.type hafter.1)
    (f.metadata.constDirectives_eq hfuel hat) hafter.2

/-- The arguments of a field are read one after another. -/
theorem argumentDefinitions_eq (h : f.WellNamed) (hfuel : f.args.length < fuel)
    (hrest : current rest ≠ .punct .parenL) :
    argumentDefinitions fuel (upon (f.argumentTokens ++ rest))
      = .ok (f.args.map argumentValue, upon rest) := by
  unfold argumentDefinitions argumentTokens
  by_cases hempty : f.args = []
  · rw [hempty]
    exact optionalMany_eq_nil hrest
  · have hitems : Items (Graphql.Parser.inputValue fuel) Declaration.argumentTokens
        (fun e => pure (argumentValue e)) f.args := by
      refine ⟨fun e _ => ⟨_, _, rfl, rfl⟩, fun e he rest hrest => ?_⟩
      exact inputValue_eq_argument (h.args e he).2 (Nat.zero_lt_of_lt hfuel) hrest
    have hread : optionalMany .parenL .parenR (Graphql.Parser.inputValue fuel) fuel (upon
        (.punct .parenL :: (f.args.flatMap Declaration.argumentTokens ++ .punct .parenR :: rest)))
        = _ := optionalMany_eq (Or.inr rfl) hempty hitems hfuel rest
    rw [List.mapM_pure] at hread
    rw [if_neg (by rw [List.isEmpty_iff]; exact hempty), List.cons_append, List.append_assoc]
    exact hread

/-- A field is read as a field of an object type. -/
theorem fieldDefinition_eq (h : f.WellNamed) (hfuel : 1 < fuel ∧ f.args.length < fuel)
    (hrest : endsItem (current rest) = true) :
    fieldDefinition fuel (upon (f.tokens ++ rest)) = .ok (f.definition, upon rest) :=
  f.metadata.fieldDefinition_eq f.key hfuel.1 hrest
    (fun _ hnext => argumentDefinitions_eq h hfuel.2 hnext) fun _ hnext => typeExpr_eq h.type hnext

end Field

-- ================================================================ values

/-- What a value of an enum is read as, given the text of its row: three
words are kept for other values. -/
def readValue (v : String) : Except SyntaxFault EnumValue :=
  let name := Enums.withoutLineFeed v
  if Enums.reserved.contains name then .error (.reservedEnumValue (.name name))
  else .ok ⟨none, name, []⟩

theorem enumValue_eq (v : String) (hfuel : 0 < fuel) (hrest : current rest ≠ .punct .at) :
    enumValue fuel (upon (.name (Enums.withoutLineFeed v) :: rest))
      = leaving rest (readValue v) := by
  unfold readValue
  generalize Enums.withoutLineFeed v = n
  have hdescription : Graphql.Parser.description (upon (.name n :: rest))
      = .ok (none, upon (.name n :: rest)) := description_eq none rfl
  have hwords : (["true", "false", "null"].any fun w => decide ((Token.name n).value? = some w))
      = Enums.reserved.contains n := by
    unfold Enums.reserved
    simp [Token.value?]
  unfold enumValue
  rw [bind_eq_of_ok hdescription, bind_eq_of_ok (peek_cons _ _)]
  dsimp only
  rw [hwords]
  split
  · rfl
  · show (Graphql.Parser.name >>= fun n => constDirectives fuel >>= fun ds =>
      pure (⟨none, n, ds⟩ : EnumValue)) _ = _
    rw [bind_eq_of_ok (name_eq _ _), bind_eq_of_ok (constDirectives_eq_nil hfuel hrest)]
    rfl

-- ========================================================= declarations

/-- The description of a type as it is read back. -/
def readDescription (description : String) : Option String :=
  (Graphql.lex description).tokens.head?.bind Token.value?

/-- What a declaration is read as. -/
def read (d : Declaration) : Except SyntaxFault Definition :=
  let type := fun description body => Definition.type ⟨description, d.name.text, [], body⟩
  match d.body with
  | .scalar => .ok (type none .scalar)
  | .union members => .ok (type none (.union members))
  | .enum values => (fun vs => type none (.enum vs)) <$> values.mapM readValue
  | .object description fields =>
      .ok (type (readDescription description) (.object [] (fields.map Field.definition)))
  | .input fields => .ok (type none (.input (fields.map Field.inputValue)))

/-- A definition is told by its keyword, which its description may come
before. -/
theorem definition_eq_of_typeTail (said : Option String) {word : String}
    {kind : Graphql.TypeKind} (hword : typeKeyword? word = some kind) {ts : List Token}
    {r : Except SyntaxFault Graphql.TypeDefinition}
    (h : typeTail said kind fuel (upon ts) = leaving rest r) :
    definition fuel (upon ((said.map .blockString).toList ++ (.name word :: ts)))
      = leaving rest (Definition.type <$> r) := by
  have hstarts : startsTypeSystem word = true := by
    unfold startsTypeSystem
    rw [hword]
    simp
  have hsystem : typeSystemDefinition word fuel
      (upon ((said.map .blockString).toList ++ (.name word :: ts)))
        = leaving rest (Definition.type <$> r) := by
    unfold typeSystemDefinition
    rw [bind_eq_of_ok (description_eq said rfl), bind_eq_of_ok (keyword_eq _ _), hword]
    exact bind_pure_eq h _
  rw [← hsystem]
  unfold definition
  cases said with
  | none =>
      show (peek >>= _) (upon (.name word :: ts)) = _
      rw [bind_eq_of_ok (peek_cons _ _)]
      simp only [reduceCtorEq, if_false, Token.isString, Bool.false_eq_true, pure_bind, decide_false,
        Bool.and_false, hstarts, if_true]
      rfl
  | some text =>
      show (peek >>= _) (upon (.blockString text :: .name word :: ts)) = _
      rw [bind_eq_of_ok (peek_cons _ _)]
      simp only [reduceCtorEq, if_false, Token.isString, if_true]
      rw [bind_eq_of_ok (lookahead_eq _ _)]
      simp only [List.headD_cons, reduceCtorEq, decide_false, Bool.and_false, Bool.false_eq_true,
        hstarts, if_true]
      rfl

section

variable (said : Option String) (n : String) {ts : List Token}

theorem typeTail_scalar (hfuel : 0 < fuel) (hrest : current rest ≠ .punct .at) :
    typeTail said .scalar fuel (upon (.name n :: rest))
      = leaving rest (.ok ⟨said, n, [], .scalar⟩) := by
  unfold typeTail
  rw [bind_eq_of_ok (name_eq _ _)]
  dsimp only
  rw [pure_bind, bind_eq_of_ok (constDirectives_eq_nil hfuel hrest), pure_bind]
  rfl

theorem typeTail_union (hfuel : 0 < fuel) {members : List String}
    (h : delimited .pipe Graphql.Parser.name fuel (upon ts) = .ok (members, upon rest)) :
    typeTail said .union fuel (upon (.name n :: .punct .equals :: ts))
      = leaving rest (.ok ⟨said, n, [], .union members⟩) := by
  have hequals : current (Token.punct .equals :: ts) ≠ .punct .at := fun h => by cases h
  have hmembers : unionMembers fuel (upon (.punct .equals :: ts))
      = leaving rest (.ok members) := by
    unfold unionMembers
    rw [bind_eq_of_ok (optionalMark_eq_true _ _)]
    exact h
  unfold typeTail
  rw [bind_eq_of_ok (name_eq _ _)]
  dsimp only
  rw [pure_bind, bind_eq_of_ok (constDirectives_eq_nil hfuel hequals)]
  exact bind_pure_eq (map_eq hmembers _) _

theorem typeTail_enum (hfuel : 0 < fuel) {r : Except SyntaxFault (List EnumValue)}
    (h : optionalMany .braceL .braceR (enumValue fuel) fuel (upon (.punct .braceL :: ts))
      = leaving rest r) :
    typeTail said .enum fuel (upon (.name n :: .punct .braceL :: ts))
      = leaving rest ((fun vs => ⟨said, n, [], .enum vs⟩) <$> r) := by
  have hbrace : current (Token.punct .braceL :: ts) ≠ .punct .at := fun h => by cases h
  unfold typeTail
  rw [bind_eq_of_ok (name_eq _ _)]
  dsimp only
  rw [pure_bind, bind_eq_of_ok (constDirectives_eq_nil hfuel hbrace)]
  have hread := bind_pure_eq (map_eq h Graphql.TypeBody.enum)
    fun body => (⟨said, n, [], body⟩ : Graphql.TypeDefinition)
  cases r <;> exact hread

theorem typeTail_object (hfuel : 0 < fuel) {fields : List FieldDefinition}
    (h : fieldDefinitions fuel (upon (.punct .braceL :: ts)) = .ok (fields, upon rest)) :
    typeTail said .object fuel (upon (.name n :: .punct .braceL :: ts))
      = leaving rest (.ok ⟨said, n, [], .object [] fields⟩) := by
  have hbrace : current (Token.punct .braceL :: ts) ≠ .punct .at := fun h => by cases h
  have hword : current (Token.punct .braceL :: ts) ≠ .name "implements" := fun h => by cases h
  have hnone : interfaces fuel (upon (.punct .braceL :: ts))
      = .ok ([], upon (.punct .braceL :: ts)) := by
    unfold interfaces
    rw [bind_eq_of_ok (optionalKeyword_eq_false hword)]
    rfl
  have hfields : fieldDefinitions fuel (upon (.punct .braceL :: ts))
      = leaving rest (.ok fields) := h
  unfold typeTail
  rw [bind_eq_of_ok (name_eq _ _)]
  dsimp only
  rw [bind_eq_of_ok hnone, bind_eq_of_ok (constDirectives_eq_nil hfuel hbrace)]
  exact bind_pure_eq (map_eq hfields _) _

theorem typeTail_input (hfuel : 0 < fuel) {fields : List InputValue}
    (h : optionalMany .braceL .braceR (inputValue fuel) fuel (upon (.punct .braceL :: ts))
      = .ok (fields, upon rest)) :
    typeTail said .input fuel (upon (.name n :: .punct .braceL :: ts))
      = leaving rest (.ok ⟨said, n, [], .input fields⟩) := by
  have hbrace : current (Token.punct .braceL :: ts) ≠ .punct .at := fun h => by cases h
  have hfields : optionalMany .braceL .braceR (inputValue fuel) fuel (upon (.punct .braceL :: ts))
      = leaving rest (.ok fields) := h
  unfold typeTail
  rw [bind_eq_of_ok (name_eq _ _)]
  dsimp only
  rw [pure_bind, bind_eq_of_ok (constDirectives_eq_nil hfuel hbrace)]
  exact bind_pure_eq (map_eq hfields _) _

end

theorem Field.length_args_lt (f : Field) : f.args.length + 1 < f.tokens.length := by
  have hargs : f.args.length ≤ f.argumentTokens.length := by
    unfold argumentTokens
    split
    · next hempty =>
        rw [List.isEmpty_iff.1 hempty]
        exact Nat.zero_le _
    · have hrow : f.args.length ≤ (f.args.flatMap Declaration.argumentTokens).length :=
        length_le_flatMap fun e _ => Nat.succ_pos _
      rw [List.length_cons, List.length_append]
      omega
  unfold tokens
  simp only [List.length_append, List.length_cons]
  omega

/-- The fuel that the rows of fields take. -/
theorem Field.fuel_rows {fields : List Field} {fuel : Nat}
    (hfuel : (fields.flatMap Field.tokens).length < fuel) :
    fields.length < fuel ∧ ∀ f ∈ fields, 1 < fuel ∧ f.args.length < fuel := by
  refine ⟨Nat.lt_of_le_of_lt (length_le_flatMap fun f _ => ?_) hfuel, fun f hf => ?_⟩
  · exact Nat.zero_lt_of_lt f.length_args_lt
  · have hargs := f.length_args_lt
    have hrow := length_le_flatMap_of_mem Field.tokens hf
    omega

-- ============================================================== fields in rows

/-- Fields between braces are read one after another. -/
theorem fieldDefinitions_eq {fields : List Field} (hsome : fields ≠ [])
    (h : ∀ f ∈ fields, f.WellNamed) (hfuel : (fields.flatMap Field.tokens).length < fuel)
    (rest : List Token) :
    fieldDefinitions fuel (upon (.punct .braceL
        :: (fields.flatMap Field.tokens ++ .punct .braceR :: rest)))
      = .ok (fields.map Field.definition, upon rest) := by
  obtain ⟨hlength, hargs⟩ := Field.fuel_rows hfuel
  have hitems : Items (fieldDefinition fuel) Field.tokens (fun f => pure f.definition) fields :=
    ⟨fun f _ => f.startsItem_tokens,
      fun f hf _ hrest => Field.fieldDefinition_eq (h f hf) (hargs f hf) hrest⟩
  have hread : optionalMany .braceL .braceR _ fuel _ = _ :=
    optionalMany_eq (Or.inl rfl) hsome hitems hlength rest
  rw [List.mapM_pure] at hread
  exact hread

/-- Fields of input types are so, too. -/
theorem inputValues_eq {fields : List Field} (hsome : fields ≠ [])
    (h : ∀ f ∈ fields, f.WellNamed ∧ f.args = [])
    (hfuel : (fields.flatMap Field.tokens).length < fuel) (rest : List Token) :
    optionalMany .braceL .braceR (inputValue fuel) fuel (upon (.punct .braceL
        :: (fields.flatMap Field.tokens ++ .punct .braceR :: rest)))
      = .ok (fields.map Field.inputValue, upon rest) := by
  obtain ⟨hlength, hargs⟩ := Field.fuel_rows hfuel
  have hitems : Items (inputValue fuel) Field.tokens (fun f => pure f.inputValue) fields :=
    ⟨fun f _ => f.startsItem_tokens,
      fun f hf _ hrest => Field.inputValue_eq (h f hf).1 (h f hf).2 (hargs f hf).1 hrest⟩
  have hread : optionalMany .braceL .braceR _ fuel _ = _ :=
    optionalMany_eq (Or.inl rfl) hsome hitems hlength rest
  rw [List.mapM_pure] at hread
  exact hread

/-- Values of an enum are read up to the first that is refused. -/
theorem enumValues_eq {values : List String} (hsome : values ≠ []) (hfuel : values.length < fuel)
    (rest : List Token) :
    optionalMany .braceL .braceR (enumValue fuel) fuel (upon (.punct .braceL
        :: (values.map (fun v => .name (Enums.withoutLineFeed v)) ++ .punct .braceR :: rest)))
      = leaving rest (values.mapM readValue) := by
  have hitems : Items (enumValue fuel) (fun v => [.name (Enums.withoutLineFeed v)]) readValue
      values :=
    ⟨fun v _ => ⟨_, _, rfl, rfl⟩, fun v _ rest hrest => enumValue_eq v (Nat.zero_lt_of_lt hfuel)
      (ne_punct_of_endsItem hrest (by decide))⟩
  have hread : optionalMany .braceL .braceR _ fuel _ = _ :=
    optionalMany_eq (Or.inl rfl) hsome hitems hfuel rest
  rw [← List.map_eq_flatMap] at hread
  exact hread

-- =============================================================== documents

/-- A declaration whose names may stand in a document is read as what it
stands for. -/
theorem definition_eq {d : Declaration} (h : d.WellNamed) (hfuel : d.tokens.length < fuel)
    (hrest : endsItem (current rest) = true) :
    definition fuel (upon (d.tokens ++ rest)) = leaving rest d.read := by
  obtain ⟨name, body⟩ := d
  obtain ⟨-, hbody⟩ := h
  have hpos : 0 < fuel := Nat.zero_lt_of_lt hfuel
  have hat : current rest ≠ .punct .at := ne_punct_of_endsItem hrest (by decide)
  have hpipe : current rest ≠ .punct .pipe := ne_punct_of_endsItem hrest (by decide)
  unfold tokens at hfuel ⊢
  cases body with
  | scalar => exact definition_eq_of_typeTail none rfl (typeTail_scalar none name.text hpos hat)
  | union members =>
      have hlength : members.length < fuel := by
        have hrow := length_le_intercalate .pipe members
        simp only [List.length_cons] at hfuel
        omega
      have hmembers := delimited_eq hbody.1 hlength hpipe
      exact definition_eq_of_typeTail none rfl (typeTail_union none name.text hpos hmembers)
  | enum values =>
      have hlength : values.length < fuel := by
        simp only [List.length_cons, List.length_append, List.length_map] at hfuel
        omega
      have hvalues := enumValues_eq hbody.1 hlength rest
      have htail := typeTail_enum none name.text hpos hvalues
      rw [List.cons_append, List.cons_append, List.cons_append, List.append_assoc,
        List.singleton_append]
      refine (definition_eq_of_typeTail none rfl htail).trans ?_
      show _ = leaving rest
        ((fun vs => Definition.type ⟨none, name.text, [], .enum vs⟩) <$> values.mapM readValue)
      generalize values.mapM readValue = r
      cases r <;> rfl
  | object description fields =>
      obtain ⟨said, hsaid, -⟩ := hbody.1.closed
      have hlength : (fields.flatMap Field.tokens).length < fuel := by
        simp only [List.length_cons, List.length_append] at hfuel
        omega
      have hfields := fieldDefinitions_eq hbody.2.1 hbody.2.2 hlength rest
      have hdescription : readDescription description = said := by
        unfold readDescription
        rw [hsaid]
        cases said <;> rfl
      unfold read
      dsimp only
      rw [hsaid, hdescription, List.append_assoc, List.cons_append, List.cons_append,
        List.cons_append, List.append_assoc, List.singleton_append]
      exact definition_eq_of_typeTail said rfl (typeTail_object said name.text hpos hfields)
  | input fields =>
      have hlength : (fields.flatMap Field.tokens).length < fuel := by
        simp only [List.length_cons, List.length_append] at hfuel
        omega
      have hfields := inputValues_eq hbody.1 hbody.2 hlength rest
      rw [List.cons_append, List.cons_append, List.cons_append, List.append_assoc,
        List.singleton_append]
      exact definition_eq_of_typeTail none rfl (typeTail_input none name.text hpos hfields)

/-- A declaration starts with its keyword or its description. -/
theorem startsItem_tokens {d : Declaration} (h : d.WellNamed) :
    ∃ t ts, d.tokens = t :: ts ∧ startsItem t = true := by
  obtain ⟨name, body⟩ := d
  unfold tokens
  cases body with
  | object description fields =>
      obtain ⟨said, hsaid, -⟩ := h.body.1.closed
      dsimp only
      rw [hsaid]
      cases said with
      | none => exact ⟨_, _, rfl, rfl⟩
      | some text => exact ⟨_, _, rfl, rfl⟩
  | _ => exact ⟨_, _, rfl, rfl⟩

/-- Some declarations start as one does. -/
theorem startsItem_flatMap {d : Declaration} {ds : List Declaration} (h : d.WellNamed) :
    startsItem (current ((d :: ds).flatMap tokens)) = true := by
  obtain ⟨t, ts, hts, ht⟩ := startsItem_tokens h
  rw [List.flatMap_cons, hts]
  exact ht

/-- Declarations are read one after another, up to the first that is
refused. -/
theorem definitions_eq {ds : List Declaration} (hsome : ds ≠ []) (h : ∀ d ∈ ds, d.WellNamed)
    (hfuel : ∀ d ∈ ds, d.tokens.length < fuel) {bound : Nat} (hbound : ds.length ≤ bound) :
    definitions fuel bound (upon (ds.flatMap tokens)) = leaving [] (ds.mapM read) := by
  induction ds generalizing bound with
  | nil => exact absurd rfl hsome
  | cons d ds ih =>
      have hd := h d List.mem_cons_self
      have hdfuel := hfuel d List.mem_cons_self
      cases bound with
      | zero => cases hbound
      | succ bound =>
          rw [List.flatMap_cons, List.mapM_cons]
          unfold definitions
          cases ds with
          | nil =>
              have hhead : definition fuel (upon (d.tokens ++ [])) = leaving [] d.read :=
                definition_eq hd hdfuel rfl
              rw [List.flatMap_nil]
              cases hread : d.read with
              | error e =>
                  rw [hread] at hhead
                  exact bind_eq_of_error hhead _
              | ok a =>
                  rw [hread] at hhead
                  rw [bind_eq_of_ok hhead]
                  rfl
          | cons d' ds =>
              have hds : ∀ e ∈ d' :: ds, e.WellNamed := fun e he => h e (List.mem_cons_of_mem d he)
              have htail := ih (List.cons_ne_nil _ _) hds
                (fun e he => hfuel e (List.mem_cons_of_mem d he)) (Nat.le_of_succ_le_succ hbound)
              have hnext : startsItem (current ((d' :: ds).flatMap tokens)) = true :=
                startsItem_flatMap (hds d' List.mem_cons_self)
              have hhead := definition_eq hd hdfuel (endsItem_of_startsItem hnext)
              have hgoes : current ((d' :: ds).flatMap tokens) ≠ .eof := by
                intro heof
                rw [heof] at hnext
                cases hnext
              cases hread : d.read with
              | error e =>
                  rw [hread] at hhead
                  exact bind_eq_of_error hhead _
              | ok a =>
                  rw [hread] at hhead
                  rw [bind_eq_of_ok hhead, bind_eq_of_ok (peek_eq _), if_neg hgoes]
                  exact bind_pure_eq htail _

/-- The text of declarations is read as what they stand for. -/
theorem parse_texts {ds : List Declaration} (hsome : ds ≠ []) (h : ∀ d ∈ ds, d.WellNamed) :
    Graphql.parse (texts ds) = ds.mapM read := by
  have hlex : Graphql.lex (texts ds) = upon (ds.flatMap tokens) := Graphql.lex_eq (lexes_texts h)
  have hlength : ds.length ≤ (ds.flatMap tokens).length := by
    refine length_le_flatMap fun d hd => ?_
    obtain ⟨t, ts, hts, -⟩ := startsItem_tokens (h d hd)
    rw [hts]
    exact Nat.succ_pos _
  have hfuel : ∀ d ∈ ds, d.tokens.length < (ds.flatMap tokens).length + 1 :=
    fun d hd => Nat.lt_succ_of_le (length_le_flatMap_of_mem tokens hd)
  have hread := definitions_eq hsome h hfuel (Nat.le_succ_of_le hlength)
  unfold Graphql.parse
  rw [run_eq hlex]
  show Except.map Prod.fst (definitions _ _ _) = _
  rw [hread]
  cases ds.mapM read <;> rfl

end Declaration

end ModelSchema
