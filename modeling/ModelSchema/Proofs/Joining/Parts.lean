/-
The parts of documents, each with what must not follow it. Within brackets
nothing is asked. The parts that stand at the end of a definition ask that no
mark comes that goes on with them, nor the word that lists interfaces; an
opening brace is apart, since a definition may be without its body.
-/
import ModelSchema.Proofs.Joining.Follows

namespace ModelSchema.Graphql.Parser

variable {fuel fuel' bound bound' room : Nat} {constant : Bool}

-- ================================================================ values

theorem follows_variableName : Free variableName variableName :=
  (follows_mark .dollar).bind fun _ => follows_name

theorem needs_plainLiteral (constant : Bool) : Needs (plainLiteral constant) :=
  needs_peek_bind needs_unexpected

theorem follows_plainLiteral (constant : Bool) :
    Free (plainLiteral constant) (plainLiteral constant) := by
  refine follows_peek_bind_needs (fun t ts fault => ?_) needs_unexpected
  cases t with
  | int text => exact followsAt_advance_bind (follows_pure _ _)
  | float text => exact followsAt_advance_bind (follows_pure _ _)
  | string value => exact followsAt_advance_bind (follows_pure _ _)
  | blockString value => exact followsAt_advance_bind (follows_pure _ _)
  | name word => exact followsAt_advance_bind (follows_pure _ _)
  | eof => exact follows_unexpected _
  | punct p =>
      cases p with
      | dollar =>
          cases constant with
          | false => exact follows_variableName.bind (fun word => follows_pure _) _
          | true =>
              refine followsAt_advance_bind (follows_peek_bind_needs (fun t ts fault => ?_) ?_ _)
              · cases t with
                | name word => exact follows_throw _ _
                | _ => exact follows_throw _ _
              · exact needs_throw _
      | _ => exact follows_unexpected _

/-- A key with what it stands for. -/
theorem follows_keyed {α : Type} {value value' : Parser α} (h : Free value value') :
    Free (do let key ← name; mark .colon; return (key, ← value))
      (do let key ← name; mark .colon; return (key, ← value')) :=
  follows_name.bind fun key => (follows_mark .colon).bind fun _ =>
    h.bind fun value => follows_pure (key, value)

theorem follows_literal (constant : Bool) (hle : fuel ≤ fuel') (room : Nat) :
    Free (literal constant fuel room) (literal constant fuel' room) := by
  induction room with
  | zero =>
      refine follows_peek_bind_needs (fun t ts fault => ?_) (needs_plainLiteral constant)
      cases t with
      | punct p =>
          cases p with
          | bracketL => exact follows_throw _ _
          | braceL => exact follows_throw _ _
          | _ => exact follows_plainLiteral constant _
      | _ => exact follows_plainLiteral constant _
  | succ room ih =>
      refine follows_peek_bind_needs (fun t ts fault => ?_) (needs_plainLiteral constant)
      cases t with
      | punct p =>
          cases p with
          | bracketL =>
              exact Free.bind (follows_any ih .bracketL .bracketR hle) (fun xs => follows_pure _) _
          | braceL =>
              exact Free.bind (follows_any (follows_keyed ih) .braceL .braceR hle)
                (fun xs => follows_pure _) _
          | _ => exact follows_plainLiteral constant _
      | _ => exact follows_plainLiteral constant _

/-- Arguments that were not there must not follow. -/
theorem follows_arguments (constant : Bool) (hle : fuel ≤ fuel') (room : Nat) :
    Follows (fun args t => args = [] → t ≠ .punct .parenL) (arguments constant fuel room)
      (arguments constant fuel' room) :=
  follows_optionalMany (follows_keyed (follows_literal constant hle room)) .parenL .parenR hle

-- ============================================================ directives

theorem follows_directive (constant : Bool) (hle : fuel ≤ fuel') (room : Nat) :
    Follows (fun _ t => t ≠ .punct .parenL) (directive constant fuel room)
      (directive constant fuel' room) :=
  (follows_mark .at).bind fun _ => follows_name.bind fun name =>
    (follows_arguments constant hle room).bind (fun args => follows_pure (Directive.mk name args))
      fun _ _ _ _ _ _ ht _ => ht

/-- A token that goes on with no row of directives. -/
def EndsDirectives (t : Token) : Prop := t ≠ .punct .at ∧ t ≠ .punct .parenL

theorem follows_directives (constant : Bool) (room : Nat) (hle : fuel ≤ fuel')
    (hbound : bound ≤ bound') :
    Follows (fun _ t => EndsDirectives t) (directives constant room fuel bound)
      (directives constant room fuel' bound') := by
  induction bound generalizing bound' with
  | zero => exact follows_unexpected
  | succ bound ih =>
      cases bound' with
      | zero => cases hbound
      | succ bound' =>
          have hmore := ih (Nat.le_of_succ_le_succ hbound)
          refine follows_peek_bind (fun t ts fault => follows_ite (fun _ => ?_) (fun _ => ?_) _)
            fun fault ds s' hok => ?_
          · exact (follows_directive constant hle room).bind
              (fun d => hmore.bind (fun ds => follows_pure (d :: ds)) fun _ _ _ _ _ _ ht => ht)
              fun _ _ _ _ _ _ ht => ht.2
          · exact follows_pure []
          · cases hok
            refine ⟨rfl, fun more hmore => ?_⟩
            rw [if_neg hmore.1]
            rfl

theorem follows_constDirectives (hle : fuel ≤ fuel') :
    Follows (fun _ t => EndsDirectives t) (constDirectives fuel) (constDirectives fuel') :=
  follows_directives true maxNesting hle hle

-- =============================================================== types

theorem follows_optionalNonNull (inner : TypeExpr) :
    Follows (fun _ t => t ≠ .punct .bang) (optionalNonNull inner) (optionalNonNull inner) :=
  (follows_optionalMark .bang).bind (fun _ => follows_pure _) fun _ _ _ _ _ _ ht _ => ht

theorem follows_typeExprWithin (room : Nat) :
    Follows (fun _ t => t ≠ .punct .bang) (typeExprWithin room) (typeExprWithin room) := by
  have named : Follows (fun _ t => t ≠ .punct .bang)
      (name >>= fun n => optionalNonNull (.named n)) (name >>= fun n => optionalNonNull (.named n)) :=
    follows_name.bind fun n => follows_optionalNonNull (.named n)
  have hneeds : Needs (name >>= fun n => optionalNonNull (.named n)) := needs_name.bind _
  induction room with
  | zero =>
      unfold typeExprWithin
      refine (follows_optionalMark .bracketL).bind (fun b => ?_) fun b a fault s' hok => ?_
      · cases b with
        | true => exact follows_throw _
        | false => exact named
      · cases b with
        | true => cases hok
        | false => exact absurd hok (hneeds fault _)
  | succ room ih =>
      unfold typeExprWithin
      refine (follows_optionalMark .bracketL).bind (fun b => ?_) fun b a fault s' hok => ?_
      · cases b with
        | true =>
            exact ih.bind_needs (fun item => (follows_mark .bracketR).bind fun _ =>
              follows_optionalNonNull (.list item)) fun _ => (needs_mark .bracketR).bind _
        | false => exact named
      · cases b with
        | true => exact fun _ _ => Bool.noConfusion
        | false => exact absurd hok (hneeds fault _)

theorem follows_typeExpr : Follows (fun _ t => t ≠ .punct .bang) typeExpr typeExpr :=
  follows_typeExprWithin maxNesting

theorem follows_constLiteral (hle : fuel ≤ fuel') : Free (constLiteral fuel) (constLiteral fuel') :=
  follows_literal true hle maxNesting

/-- A default may be left out. -/
theorem within_default {α : Type} (hle : fuel ≤ fuel') (make : Option Literal → List Directive → α) :
    Within
      (do
        let default ← if ← optionalMark .equals then some <$> constLiteral fuel else pure none
        return make default (← constDirectives fuel))
      (do
        let default ← if ← optionalMark .equals then some <$> constLiteral fuel' else pure none
        return make default (← constDirectives fuel')) := by
  have rest : ∀ default, Within
      (constDirectives fuel >>= fun ds => pure (make default ds))
      (constDirectives fuel' >>= fun ds => pure (make default ds)) :=
    fun default => Within.bind (follows_constDirectives hle) fun ds => follows_pure _
  refine Within.bind (follows_optionalMark .equals) fun default => ?_
  cases default with
  | true => exact Within.bind (Free.map (follows_constLiteral hle) some) rest
  | false => exact rest none

-- =========================================================== operations

theorem follows_fragmentName : Free fragmentName fragmentName :=
  follows_peek_bind_needs
    (fun _ _ _ => follows_ite (fun _ => follows_unexpected) (fun _ => follows_name) _)
    fun _ _ h => nomatch h

/-- A selection is followed by another one, or by the end of the selections. -/
theorem within_selectionHead {set set' : Parser (List Selection)} (h : Within set set')
    (hle : fuel ≤ fuel') (room : Nat) :
    Within (selectionHead fuel room set) (selectionHead fuel' room set') := by
  have directives : Within (directives false room fuel fuel) (directives false room fuel' fuel') :=
    (follows_directives false room hle hle).within
  refine Within.bind (follows_optionalMark .spread) fun spread => ?_
  cases spread with
  | true =>
      have inline : ∀ on, Within
          (Parser.directives false room fuel fuel >>= fun ds => set >>= fun sub =>
            pure (Selection.inline on ds sub))
          (Parser.directives false room fuel' fuel' >>= fun ds => set' >>= fun sub =>
            pure (Selection.inline on ds sub)) := fun on =>
        Within.bind directives fun ds => Within.bind h fun sub => follows_pure _
      refine Within.bind (follows_optionalKeyword "on") fun on => ?_
      refine Within.bind follows_peek fun t => follows_ite (fun _ => ?_) (fun _ => ?_)
      · exact Within.bind follows_fragmentName fun _ =>
          Within.bind directives fun ds => follows_pure _
      · cases on with
        | true => exact Within.bind (Free.map follows_name some) inline
        | false => exact inline none
  | false =>
      have field : ∀ name, Within _ _ := fun name =>
        Within.bind (follows_arguments false hle room) fun args =>
        Within.bind directives fun ds => Within.bind follows_peek fun t =>
          follows_ite (c := t = .punct .braceL)
            (fun _ => Within.bind h fun sub => follows_pure (Selection.field name args ds sub))
            fun _ => follows_pure (Selection.field name args ds [])
      refine Within.bind follows_name fun first => ?_
      refine Within.bind (follows_optionalMark .colon) fun colon => ?_
      cases colon with
      | true => exact Within.bind follows_name field
      | false => exact field first

theorem follows_selectionsWithin (hle : fuel ≤ fuel') (room : Nat) :
    Free (selectionsWithin fuel room) (selectionsWithin fuel' room) := by
  induction room with
  | zero => exact follows_throw _
  | succ room ih => exact follows_many (within_selectionHead ih.within hle room) .braceL .braceR hle

theorem needs_selectionSet (fuel : Nat) : Needs (selectionSet fuel) :=
  needs_many .braceL .braceR _ fuel

theorem follows_selectionSet (hle : fuel ≤ fuel') : Free (selectionSet fuel) (selectionSet fuel') :=
  follows_selectionsWithin hle maxNesting

theorem needs_operationKind : Needs operationKind := fun _ _ h => nomatch h

theorem follows_operationKind : Free operationKind operationKind := by
  refine follows_peek_bind_needs (fun t ts fault => ?_) needs_operationKind
  refine Free.bind follows_name (fun word => ?_) _
  cases OperationKind.ofWord? word with
  | some kind => exact follows_pure kind
  | none => exact follows_throw _

theorem within_variableDefinition (hle : fuel ≤ fuel') :
    Within (variableDefinition fuel) (variableDefinition fuel') := by
  refine Within.bind follows_description fun _ => Within.bind follows_variableName fun _ => ?_
  exact Within.bind (follows_mark .colon) fun _ => Within.bind follows_typeExpr fun type =>
    within_default hle (VariableDefinition.mk type)

theorem follows_operation (hle : fuel ≤ fuel') : Free (operation fuel) (operation fuel') := by
  have tail : ∀ kind, Free _ _ := fun kind =>
    (follows_optionalMany (within_variableDefinition hle) .parenL .parenR hle).bind_needs
      (fun vars => (follows_directives false maxNesting hle hle).bind_needs
        (fun ds => (follows_selectionSet hle).bind fun sub =>
          follows_pure (Definition.operation kind vars ds sub))
        fun _ => (needs_selectionSet fuel).bind _)
      fun _ => (follows_directives false maxNesting hle hle).needs_bind fun _ =>
        (needs_selectionSet fuel).bind _
  have needs : ∀ kind, Needs _ := fun kind =>
    (follows_optionalMany (within_variableDefinition hle) .parenL .parenR hle).needs_bind
      fun vars => (follows_directives false maxNesting hle hle).needs_bind fun ds =>
        (needs_selectionSet fuel).bind fun sub => pure (Definition.operation kind vars ds sub)
  refine follows_description.bind_needs (fun _ => ?_) fun _ => needs_operationKind.bind _
  refine follows_operationKind.bind fun kind => ?_
  refine follows_peek_bind_needs (fun t ts fault => ?_) (needs kind)
  cases t with
  | name word => exact followsAt_advance_bind (tail kind _)
  | _ => exact tail kind _

theorem follows_fragment (hle : fuel ≤ fuel') : Free (fragment fuel) (fragment fuel') := by
  refine follows_description.bind_needs (fun _ => ?_) fun _ => (needs_keyword "fragment").bind _
  refine (follows_keyword "fragment").bind fun _ => follows_fragmentName.bind fun _ => ?_
  refine (follows_keyword "on").bind fun _ => follows_name.bind fun on => ?_
  exact (follows_directives false maxNesting hle hle).bind_needs
    (fun ds => (follows_selectionSet hle).bind fun sub => follows_pure _)
    fun _ => (needs_selectionSet fuel).bind _

-- ================================================================ fields

theorem within_inputValue (hle : fuel ≤ fuel') :
    Within (inputValue fuel) (inputValue fuel') := by
  refine Within.bind follows_description fun said => Within.bind follows_name fun name => ?_
  exact Within.bind (follows_mark .colon) fun _ => Within.bind follows_typeExpr fun type =>
    within_default hle (InputValue.mk said name type)

theorem follows_argumentDefinitions (hle : fuel ≤ fuel') :
    Follows (fun args t => args = [] → t ≠ .punct .parenL) (argumentDefinitions fuel)
      (argumentDefinitions fuel') :=
  follows_optionalMany (within_inputValue hle) .parenL .parenR hle

theorem within_fieldDefinition (hle : fuel ≤ fuel') :
    Within (fieldDefinition fuel) (fieldDefinition fuel') :=
  Within.bind follows_description fun _ => Within.bind follows_name fun _ =>
    Within.bind (follows_argumentDefinitions hle) fun _ => Within.bind (follows_mark .colon) fun _ =>
      Within.bind follows_typeExpr fun _ => Within.bind (follows_constDirectives hle) fun _ =>
        follows_pure _

theorem within_enumValue (hle : fuel ≤ fuel') : Within (enumValue fuel) (enumValue fuel') := by
  refine Within.bind follows_description fun said => Within.bind follows_peek fun t => ?_
  refine follows_ite (fun _ => follows_throw _) (fun _ => ?_)
  exact Within.bind follows_name fun name => Within.bind (follows_constDirectives hle) fun ds =>
    follows_pure _

/-- The root type of one kind of operation. -/
theorem follows_rootType : Free rootType rootType :=
  follows_operationKind.bind fun kind => (follows_mark .colon).bind fun _ =>
    follows_name.bind fun name => follows_pure (kind, name)

-- ================================================================= types

/-- A token that goes on with no definition, unless this is without its
body. -/
structure Neutral (t : Token) : Prop where
  mark : ∀ p, t = .punct p → p = .braceL
  word : t ≠ .name "implements"

theorem Neutral.ne {t : Token} (h : Neutral t) {p : Punct} (hp : p ≠ .braceL) : t ≠ .punct p :=
  fun heq => hp (h.mark p heq)

theorem Neutral.endsDirectives {t : Token} (h : Neutral t) : EndsDirectives t :=
  ⟨h.ne Punct.noConfusion, h.ne Punct.noConfusion⟩

theorem neutral_eof : Neutral .eof := ⟨fun _ => Token.noConfusion, Token.noConfusion⟩

theorem neutral_name {s : String} (h : s ≠ "implements") : Neutral (.name s) :=
  ⟨fun _ => Token.noConfusion, fun heq => h (Token.name.inj heq)⟩

theorem neutral_braceL : Neutral (.punct .braceL) :=
  ⟨fun _ heq => (Token.punct.inj heq).symm, Token.noConfusion⟩

theorem neutral_of_isString {t : Token} (h : t.isString = true) : Neutral t := by
  cases t with
  | string => exact ⟨fun _ => Token.noConfusion, Token.noConfusion⟩
  | blockString => exact ⟨fun _ => Token.noConfusion, Token.noConfusion⟩
  | _ => cases h

theorem follows_interfaces (hle : fuel ≤ fuel') :
    Follows (fun _ t => Neutral t) (interfaces fuel) (interfaces fuel') := by
  refine (follows_optionalKeyword "implements").bind (fun b => ?_) fun _ _ _ _ _ _ ht _ => ht.word
  cases b with
  | true =>
      exact (follows_delimited follows_name needs_name .amp hle).mono
        fun _ t ht => ht.ne Punct.noConfusion
  | false => exact follows_pure []

theorem follows_unionMembers (hle : fuel ≤ fuel') :
    Follows (fun _ t => Neutral t) (unionMembers fuel) (unionMembers fuel') := by
  refine (follows_optionalMark .equals).bind (fun b => ?_)
    fun _ _ _ _ _ _ ht _ => ht.ne Punct.noConfusion
  cases b with
  | true =>
      exact (follows_delimited follows_name needs_name .pipe hle).mono
        fun _ t ht => ht.ne Punct.noConfusion
  | false => exact follows_pure []

end ModelSchema.Graphql.Parser

namespace ModelSchema.Graphql

/-- Whether a type is without its body, so that one might follow. -/
def TypeBody.awaitsBody : TypeBody → Bool
  | .object _ fields | .interface _ fields => fields.isEmpty
  | .enum values => values.isEmpty
  | .input fields => fields.isEmpty
  | .scalar | .union _ => false

/-- Whether a definition is without its body, so that one might follow. -/
def Definition.awaitsBody : Definition → Bool
  | .type t | .extendType t => t.body.awaitsBody
  | .extendSchema _ roots => roots.isEmpty
  | _ => false

namespace Parser

variable {fuel fuel' : Nat}

/-- A type after its keyword up to its body: its name, interfaces and
directives. -/
def typeHead (kind : TypeKind) (fuel : Nat) :
    Parser (String × List String × List Directive) := do
  let name ← name
  let above ← match kind with
    | .object | .interface => interfaces fuel
    | _ => pure []
  return (name, above, ← constDirectives fuel)

/-- The body of a type that lists these interfaces. -/
def typeBody (kind : TypeKind) (above : List String) (fuel : Nat) : Parser TypeBody :=
  match kind with
  | .scalar => pure .scalar
  | .object => .object above <$> fieldDefinitions fuel
  | .interface => .interface above <$> fieldDefinitions fuel
  | .union => .union <$> unionMembers fuel
  | .enum => .enum <$> optionalMany .braceL .braceR (enumValue fuel) fuel
  | .input => .input <$> optionalMany .braceL .braceR (inputValue fuel) fuel

/-- A type is its head and its body. -/
theorem typeTail_eq (said : Option String) (kind : TypeKind) (fuel : Nat) :
    typeTail said kind fuel = (typeHead kind fuel >>= fun head =>
      typeBody kind head.2.1 fuel >>= fun body => pure ⟨said, head.1, head.2.2, body⟩) := by
  unfold typeTail typeHead typeBody
  cases kind with
  | _ => simp only [bind_assoc, pure_bind]

/-- What follows a definition must go on with no part of it, and must be no
body where there was none. -/
def Apart (awaits : Bool) (t : Token) : Prop :=
  Neutral t ∧ (t = .punct .braceL → awaits = false)

theorem follows_typeHead (kind : TypeKind) (hle : fuel ≤ fuel') :
    Follows (fun _ t => Neutral t) (typeHead kind fuel) (typeHead kind fuel') := by
  have rest : ∀ (name : String) (above : List String), Follows (fun _ t => Neutral t)
      (constDirectives fuel >>= fun ds => pure (name, above, ds))
      (constDirectives fuel' >>= fun ds => pure (name, above, ds)) := fun name above =>
    (follows_constDirectives hle).bind (fun ds => follows_pure _)
      fun _ _ _ _ _ _ ht => ht.endsDirectives
  have listed : ∀ name : String, Follows (fun _ t => Neutral t) _ _ := fun name =>
    (follows_interfaces hle).bind (rest name) fun _ _ _ _ _ _ ht => ht
  unfold typeHead
  refine follows_name.bind fun name => ?_
  cases kind with
  | object => exact listed name
  | interface => exact listed name
  | _ => exact rest name []

/-- A body of items between braces is there if it has an item. -/
theorem Follows.bodied {α : Type} {p p' : Parser (List α)}
    (h : Follows (fun xs t => xs = [] → t ≠ .punct .braceL) p p') {g : List α → TypeBody}
    (hg : ∀ xs, (g xs).awaitsBody = xs.isEmpty) :
    Follows (fun body t => Apart body.awaitsBody t) (g <$> p) (g <$> p') := by
  refine h.map g fun xs t ht hnone hbrace => ?_
  have hawaits := ht.2 hbrace
  rw [hg, hnone] at hawaits
  cases hawaits

theorem follows_typeBody (kind : TypeKind) (above : List String) (hle : fuel ≤ fuel') :
    Follows (fun body t => Apart body.awaitsBody t) (typeBody kind above fuel)
      (typeBody kind above fuel') := by
  have fields := follows_optionalMany (within_fieldDefinition hle) .braceL .braceR hle
  have values := follows_optionalMany (within_enumValue hle) .braceL .braceR hle
  have inputs := follows_optionalMany (within_inputValue hle) .braceL .braceR hle
  cases kind with
  | scalar => exact follows_pure _
  | object => exact fields.bodied fun _ => rfl
  | interface => exact fields.bodied fun _ => rfl
  | union => exact (follows_unionMembers hle).map _ fun _ _ ht => ht.1
  | enum => exact values.bodied fun _ => rfl
  | input => exact inputs.bodied fun _ => rfl

theorem follows_typeTail (said : Option String) (kind : TypeKind) (hle : fuel ≤ fuel') :
    Follows (fun t u => Apart t.body.awaitsBody u) (typeTail said kind fuel)
      (typeTail said kind fuel') := by
  rw [typeTail_eq, typeTail_eq]
  refine (follows_typeHead kind hle).bind (fun head => ?_) fun _ _ _ _ _ _ ht => ht.1
  refine (follows_typeBody kind head.2.1 hle).bind (fun body => follows_pure _)
    fun body t fault s' hok u hu => ?_
  cases hok
  exact hu

end Parser

end ModelSchema.Graphql
