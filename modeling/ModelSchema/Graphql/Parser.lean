/-
From tokens to documents, one token ahead. A parser runs on the tokens
that are left and on what is wrong after the last of them; that fault
comes up when the last token has been passed, so a text that is refused
before it is refused for that reason.

Repetition is bounded by fuel: every item takes a token or more, so the
number of tokens is enough. Nesting is bounded by the language itself,
which refuses a document past a certain depth; the room that is left is
counted down over type references, literals and selections alike.
-/
import ModelSchema.Graphql.Document
import ModelSchema.Graphql.Lexer
import ModelSchema.Graphql.Standard

namespace ModelSchema.Graphql

/-- A parser on the tokens that are left, the current one first. -/
abbrev Parser := StateT Lexed (Except SyntaxFault)

namespace Parser

-- ======================================================== single tokens

/-- The current token. -/
def peek : Parser Token := return (← get).tokens.headD .eof

/-- Passes the current token. -/
def advance : Parser Unit := do
  let s ← get
  match s.tokens, s.fault with
  | [_], some e => throw e
  | ts, _ => set { s with tokens := ts.drop 1 }

/-- The token after the current one. -/
def lookahead : Parser Token := do
  let s ← get
  match s.tokens, s.fault with
  | [_], some e => throw e
  | ts, _ => return (ts.drop 1).headD .eof

/-- Refuses the current token. -/
def unexpected {α : Type} : Parser α := do throw (.unexpected (← peek))

/-- Passes a mark, which has to be there. -/
def mark (p : Punct) : Parser Unit := do
  let t ← peek
  if t = .punct p then advance else throw (.expected (Token.punct p).kindText t)

/-- Passes a mark if it is there. -/
def optionalMark (p : Punct) : Parser Bool := do
  if (← peek) = .punct p then
    advance
    return true
  return false

/-- Passes a name, which has to be there. -/
def name : Parser String := do
  match ← peek with
  | .name s =>
      advance
      return s
  | t => throw (.expected "Name" t)

/-- Passes a keyword, which has to be there. -/
def keyword (word : String) : Parser Unit := do
  let t ← peek
  if t = .name word then advance else throw (.expected ("'" ++ word ++ "'") t)

/-- Passes a keyword if it is there. -/
def optionalKeyword (word : String) : Parser Bool := do
  if (← peek) = .name word then
    advance
    return true
  return false

/-- Passes a description if one is there. -/
def description : Parser (Option String) := do
  let t ← peek
  if t.isString then
    advance
    return t.value?
  return none

-- =========================================================== repetition

variable {α : Type}

/-- Items up to a closing mark. -/
def upTo (close : Punct) (item : Parser α) : (fuel : Nat) → Parser (List α)
  | 0 => unexpected
  | fuel + 1 => do
      if ← optionalMark close then return []
      let x ← item
      return x :: (← upTo close item fuel)

/-- One item or more between marks. -/
def many (opening close : Punct) (item : Parser α) (fuel : Nat) : Parser (List α) := do
  mark opening
  let x ← item
  return x :: (← upTo close item fuel)

/-- One item or more between marks, or nothing. -/
def optionalMany (opening close : Punct) (item : Parser α) (fuel : Nat) :
    Parser (List α) := do
  if (← peek) = .punct opening then many opening close item fuel else return []

/-- Items between marks, perhaps none. -/
def any (opening close : Punct) (item : Parser α) (fuel : Nat) : Parser (List α) := do
  mark opening
  upTo close item fuel

/-- Items that each follow a mark, as long as one is there. -/
def following (mark : Punct) (item : Parser α) : (fuel : Nat) → Parser (List α)
  | 0 => unexpected
  | fuel + 1 => do
      if ← optionalMark mark then
        let x ← item
        return x :: (← following mark item fuel)
      return []

/-- One item or more with a mark between them, which may also come
first. -/
def delimited (mark : Punct) (item : Parser α) (fuel : Nat) : Parser (List α) := do
  let _ ← optionalMark mark
  let x ← item
  return x :: (← following mark item fuel)

-- =================================================== values and types

/-- The levels of lists, objects and selections that a document may
open. -/
def maxNesting : Nat := 200

/-- Refuses to open another level. -/
def tooDeep {α : Type} : Parser α := throw .nestedTooDeep

/-- A variable. -/
def variableName : Parser String := do
  mark .dollar
  name

/-- A literal that opens no level. A constant one is no variable. -/
def plainLiteral (constant : Bool) : Parser Literal := do
  match ← peek with
  | .int text =>
      advance
      return .int text
  | .float text =>
      advance
      return .float text
  | .string value | .blockString value =>
      advance
      return .string value
  | .name word =>
      advance
      return (match word with
        | "true" => .bool true
        | "false" => .bool false
        | "null" => .null
        | _ => .enum word)
  | .punct .dollar =>
      if constant then
        advance
        match ← peek with
        | .name word => throw (.variableInConstant word)
        | _ => throw (.unexpected (.punct .dollar))
      else return .variable (← variableName)
  | _ => unexpected

/-- A literal. A constant one holds no variables. -/
def literal (constant : Bool) (fuel : Nat) : (room : Nat) → Parser Literal
  | 0 => do
      match ← peek with
      | .punct .bracketL | .punct .braceL => tooDeep
      | _ => plainLiteral constant
  | room + 1 => do
      match ← peek with
      | .punct .bracketL =>
          return .list (← any .bracketL .bracketR (literal constant fuel room) fuel)
      | .punct .braceL =>
          let field : Parser (String × Literal) := do
            let key ← name
            mark .colon
            return (key, ← literal constant fuel room)
          return .object (← any .braceL .braceR field fuel)
      | _ => plainLiteral constant

/-- Arguments in parentheses, if they are there. -/
def arguments (constant : Bool) (fuel room : Nat) : Parser (List (String × Literal)) :=
  let argument : Parser (String × Literal) := do
    let key ← name
    mark .colon
    return (key, ← literal constant fuel room)
  optionalMany .parenL .parenR argument fuel

/-- A directive. -/
def directive (constant : Bool) (fuel room : Nat) : Parser Directive := do
  mark .at
  let name ← name
  return ⟨name, ← arguments constant fuel room⟩

/-- Directives, as long as they are there. -/
def directives (constant : Bool) (room fuel : Nat) : (bound : Nat) → Parser (List Directive)
  | 0 => unexpected
  | bound + 1 => do
      if (← peek) = .punct .at then
        let d ← directive constant fuel room
        return d :: (← directives constant room fuel bound)
      return []

/-- Directives without variables. -/
def constDirectives (fuel : Nat) : Parser (List Directive) :=
  directives true maxNesting fuel fuel

/-- A reference that is not null if a mark says so. -/
def optionalNonNull (inner : TypeExpr) : Parser TypeExpr := do
  return if ← optionalMark .bang then .nonNull inner else inner

/-- A reference to a type. -/
def typeExprWithin : (room : Nat) → Parser TypeExpr
  | 0 => do
      if ← optionalMark .bracketL then tooDeep
      optionalNonNull (.named (← name))
  | room + 1 => do
      if ← optionalMark .bracketL then
        let item ← typeExprWithin room
        mark .bracketR
        optionalNonNull (.list item)
      else optionalNonNull (.named (← name))

/-- A reference to a type, at the top of its own levels. -/
def typeExpr : Parser TypeExpr := typeExprWithin maxNesting

/-- A literal without variables, at the top of its own levels. -/
def constLiteral (fuel : Nat) : Parser Literal := literal true fuel maxNesting

-- =========================================================== operations

/-- A fragment's name, which is not `on`. -/
def fragmentName : Parser String := do
  if (← peek).value? = some "on" then unexpected else name

/-- What is asked of a selection that may be followed by others within
it. -/
def selectionHead (fuel room : Nat) (set : Parser (List Selection)) : Parser Selection := do
  if ← optionalMark .spread then
    let on ← optionalKeyword "on"
    let isName := match ← peek with | .name _ => true | _ => false
    if !on && isName then
      let _ ← fragmentName
      return .spread (← directives false room fuel fuel)
    let on ← if on then some <$> name else pure none
    let ds ← directives false room fuel fuel
    return .inline on ds (← set)
  let first ← name
  let name ← if ← optionalMark .colon then name else pure first
  let args ← arguments false fuel room
  let ds ← directives false room fuel fuel
  let sub ← if (← peek) = .punct .braceL then set else pure []
  return .field name args ds sub

/-- Selections between braces. -/
def selectionsWithin (fuel : Nat) : (room : Nat) → Parser (List Selection)
  | 0 => tooDeep
  | room + 1 =>
      many .braceL .braceR (selectionHead fuel room (selectionsWithin fuel room)) fuel

/-- Selections between braces, at the top of their own levels. -/
def selectionSet (fuel : Nat) : Parser (List Selection) := selectionsWithin fuel maxNesting

/-- The word for a kind of operation. -/
def operationKind : Parser OperationKind := do
  let t ← peek
  let word ← name
  match OperationKind.ofWord? word with
  | some kind => return kind
  | none => throw (.unexpected t)

/-- A variable of an operation. -/
def variableDefinition (fuel : Nat) : Parser VariableDefinition := do
  let _ ← description
  let _ ← variableName
  mark .colon
  let type ← typeExpr
  let default ← if ← optionalMark .equals then some <$> constLiteral fuel else pure none
  return ⟨type, default, ← constDirectives fuel⟩

/-- An operation with its kind. -/
def operation (fuel : Nat) : Parser Definition := do
  let _ ← description
  let kind ← operationKind
  match ← peek with
  | .name _ => advance
  | _ => pure ()
  let vars ← optionalMany .parenL .parenR (variableDefinition fuel) fuel
  let ds ← directives false maxNesting fuel fuel
  return .operation kind vars ds (← selectionSet fuel)

/-- A fragment. -/
def fragment (fuel : Nat) : Parser Definition := do
  let _ ← description
  keyword "fragment"
  let _ ← fragmentName
  keyword "on"
  let on ← name
  let ds ← directives false maxNesting fuel fuel
  return .fragment on ds (← selectionSet fuel)

-- ============================================================== types

/-- An argument of a field, or a field of an input type. -/
def inputValue (fuel : Nat) : Parser InputValue := do
  let description ← description
  let name ← name
  mark .colon
  let type ← typeExpr
  let default ← if ← optionalMark .equals then some <$> constLiteral fuel else pure none
  return ⟨description, name, type, default, ← constDirectives fuel⟩

/-- The arguments of a field or directive. -/
def argumentDefinitions (fuel : Nat) : Parser (List InputValue) :=
  optionalMany .parenL .parenR (inputValue fuel) fuel

/-- A field of an object or interface. -/
def fieldDefinition (fuel : Nat) : Parser FieldDefinition := do
  let description ← description
  let name ← name
  let arguments ← argumentDefinitions fuel
  mark .colon
  let type ← typeExpr
  return ⟨description, name, arguments, type, ← constDirectives fuel⟩

/-- The fields of an object or interface. -/
def fieldDefinitions (fuel : Nat) : Parser (List FieldDefinition) :=
  optionalMany .braceL .braceR (fieldDefinition fuel) fuel

/-- The interfaces that a type implements. -/
def interfaces (fuel : Nat) : Parser (List String) := do
  if ← optionalKeyword "implements" then delimited .amp name fuel else return []

/-- The members of a union. -/
def unionMembers (fuel : Nat) : Parser (List String) := do
  if ← optionalMark .equals then delimited .pipe name fuel else return []

/-- A value of an enum; three words are kept for other values. -/
def enumValue (fuel : Nat) : Parser EnumValue := do
  let description ← description
  let t ← peek
  if ["true", "false", "null"].any fun w => t.value? = some w then
    throw (.reservedEnumValue t)
  let name ← name
  return ⟨description, name, ← constDirectives fuel⟩

/-- The kind of type that a keyword starts. -/
def typeKeyword? : String → Option TypeKind
  | "scalar" => some .scalar
  | "type" => some .object
  | "interface" => some .interface
  | "union" => some .union
  | "enum" => some .enum
  | "input" => some .input
  | _ => none

/-- A type after its keyword: its name, directives and body. -/
def typeTail (description : Option String) (kind : TypeKind) (fuel : Nat) :
    Parser TypeDefinition := do
  let name ← name
  let above ←
    match kind with
    | .object | .interface => interfaces fuel
    | _ => pure []
  let ds ← constDirectives fuel
  let body ← match kind with
    | .scalar => pure .scalar
    | .object => .object above <$> fieldDefinitions fuel
    | .interface => .interface above <$> fieldDefinitions fuel
    | .union => .union <$> unionMembers fuel
    | .enum => .enum <$> optionalMany .braceL .braceR (enumValue fuel) fuel
    | .input => .input <$> optionalMany .braceL .braceR (inputValue fuel) fuel
  return ⟨description, name, ds, body⟩

/-- The root type of one kind of operation. -/
def rootType : Parser (OperationKind × String) := do
  let kind ← operationKind
  mark .colon
  return (kind, ← name)

/-- A place where a directive may stand. -/
def directiveLocation : Parser String := do
  let t ← peek
  let word ← name
  if Standard.directiveLocations.contains word then return word else throw (.unexpected t)

/-- A directive definition after its keyword. -/
def directiveTail (fuel : Nat) : Parser Definition := do
  mark .at
  let name ← name
  let arguments ← argumentDefinitions fuel
  let repeatable ← optionalKeyword "repeatable"
  keyword "on"
  return .directive ⟨name, arguments, repeatable, ← delimited .pipe directiveLocation fuel⟩

/-- The definition of the schema, a type or a directive. -/
def typeSystemDefinition (word : String) (fuel : Nat) : Parser Definition := do
  let description ← description
  keyword word
  match typeKeyword? word with
  | some kind => return .type (← typeTail description kind fuel)
  | none =>
      if word = "directive" then directiveTail fuel
      else
        let ds ← constDirectives fuel
        return .schema ds (← many .braceL .braceR rootType fuel)

/-- An extension, which has to add something. -/
def extension (fuel : Nat) : Parser Definition := do
  let t ← lookahead
  match t with
  | .name word =>
      match typeKeyword? word with
      | some kind =>
          advance
          advance
          let t ← typeTail none kind fuel
          if t.isEmptyExtension then unexpected else return .extendType t
      | none =>
          if word = "schema" then
            advance
            advance
            let ds ← constDirectives fuel
            let roots ← optionalMany .braceL .braceR rootType fuel
            if ds.isEmpty && roots.isEmpty then unexpected
            else return .extendSchema ds roots
          else throw (.unexpected t)
  | _ => throw (.unexpected t)

-- =========================================================== documents

/-- Whether a keyword starts the definition of a schema, type or
directive. -/
def startsTypeSystem (word : String) : Bool :=
  word = "schema" || word = "directive" || (typeKeyword? word).isSome

/-- A definition. Its keyword is the current token, or the one after its
description. -/
def definition (fuel : Nat) : Parser Definition := do
  let t ← peek
  if t = .punct .braceL then
    return .operation .query [] [] (← selectionSet fuel)
  let described := t.isString
  let key ← if described then lookahead else pure t
  if described && key = .punct .braceL then throw .describedShorthand
  match key with
  | .name word =>
      if startsTypeSystem word then typeSystemDefinition word fuel
      else if (OperationKind.ofWord? word).isSome then operation fuel
      else if word = "fragment" then fragment fuel
      else if described then throw .describedOther
      else if word = "extend" then extension fuel
      else throw (.unexpected key)
  | _ => throw (.unexpected key)

/-- Definitions up to the end of the text. -/
def definitions (fuel : Nat) : (bound : Nat) → Parser Document
  | 0 => unexpected
  | bound + 1 => do
      let d ← definition fuel
      if (← peek) = .eof then return [d]
      return d :: (← definitions fuel bound)

/-- Runs a parser on a whole text. -/
def run {α : Type} (s : String) (parser : (fuel : Nat) → Parser α) : Except SyntaxFault α :=
  let lexed := lex s
  match lexed.tokens, lexed.fault with
  | [], some e => .error e
  | tokens, _ => (parser (tokens.length + 1) lexed).map Prod.fst

end Parser

/-- The document of a text. -/
def parse (s : String) : Except SyntaxFault Document :=
  Parser.run s fun fuel => Parser.definitions fuel fuel

/-- The literal of a text, in which variables may stand. -/
def parseLiteral (s : String) : Except SyntaxFault Literal :=
  Parser.run s fun fuel => do
    let v ← Parser.literal false fuel Parser.maxNesting
    let t ← Parser.peek
    if t = .eof then return v else throw (.expected "<EOF>" t)

end ModelSchema.Graphql
