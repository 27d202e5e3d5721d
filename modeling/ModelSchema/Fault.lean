/-
Why a step of the compiler fails. A fault names its cause; the wording
of those causes that have one is in one place.
-/
import ModelSchema.Graphql.SyntaxFault
import ModelSchema.Value.Text

namespace ModelSchema

/-- The cause of a failure. -/
inductive Fault where
  /-- No model or component has the name. -/
  | unknownModel (name plugin : Value)
  /-- Two models would have the same GraphQL type name. -/
  | duplicateType (globalId first second : Value)
  /-- The text is no GraphQL document. -/
  | badSyntax (cause : Graphql.SyntaxFault)
  /-- There is nothing to query. -/
  | emptySchema
  /-- A mutation is none of create, update and delete. -/
  | unsupportedAction (action globalId : Value)
  /-- A truth value is no long integer. -/
  | booleanLong (b : Bool)
  /-- The text is no integer. -/
  | badInteger (text : String)
  /-- The text of an integer has more digits than are read. -/
  | longInteger (digits : Nat)
  /-- A number that is no number has no whole part. -/
  | undefinedInteger
  /-- An infinity has no whole part. -/
  | infiniteInteger
  /-- The integer is beyond the floating-point numbers. -/
  | hugeInteger
  /-- An entry of a list of pairs is not of two elements. -/
  | badPair (index length : Nat)
  /-- A value of this kind does not fit here. -/
  | wrongKind
  /-- The value has no such operation. -/
  | noSuchMember
  /-- A setting that must be there is not. -/
  | missingSetting
  /-- The text is no date or time. -/
  | badTemporal
  /-- The day after is past the last year. -/
  | dateOutOfRange
  /-- A directive of the document has an argument of the wrong kind. -/
  | badDirectiveArgument
  /-- The enum has no such value. -/
  | badEnumValue
  /-- The value is none of a standard scalar. -/
  | badScalar
  /-- The text is no literal. -/
  | badLiteral
  /-- The document parses, but describes no schema. -/
  | invalidSchema
deriving DecidableEq

namespace Fault

/-- The fault in words, where it has any. -/
def message? : Fault → Option String
  | .unknownModel name plugin =>
      some (s!"Unknown model '{name.text}'"
        ++ (if plugin.isGiven then s!" in plugin '{plugin.text}'" else ""))
  | .duplicateType globalId first second =>
      some (s!"GraphQL type '{globalId.text}' is derived by both "
        ++ s!"'{first.text}' and '{second.text}'")
  | .badSyntax cause => some ("Invalid SDL: Syntax Error: " ++ cause.message)
  | .emptySchema =>
      some "The GraphQL schema is empty; refusing to build an executable schema"
  | .unsupportedAction action globalId =>
      some s!"Unsupported mutation action '{action.text}' for {globalId.text}"
  | .booleanLong b =>
      some s!"Long cannot represent a boolean: {(Value.bool b).text}"
  | .badInteger text =>
      some ("invalid literal for int() with base 10: "
        ++ String.ofList ((Value.quote text).toList.take 200))
  | .longInteger digits =>
      some (s!"Exceeds the limit (4300 digits) for integer string conversion: value has "
        ++ s!"{digits} digits; use sys.set_int_max_str_digits() to increase the limit")
  | .undefinedInteger => some "cannot convert float NaN to integer"
  | .badPair index length =>
      some (s!"dictionary update sequence element #{index} has length {length}; "
        ++ "2 is required")
  | _ => none

end Fault

end ModelSchema
