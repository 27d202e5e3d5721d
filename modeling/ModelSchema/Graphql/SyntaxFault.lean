/-
Why a text is no GraphQL document. The first three groups come from
reading characters, the last from reading tokens.
-/
import ModelSchema.Graphql.Token
import ModelSchema.Text.Quoted

namespace ModelSchema.Graphql

/-- The cause that a text is no document. -/
inductive SyntaxFault where
  | unexpectedCharacter (c : Char)
  | singleQuote
  | unterminatedString
  | digitExpected (found : Option Char)
  | digitAfterZero (found : Option Char)
  | badEscape (source : String)
  | badUnicodeEscape (source : String)
  | expected (kind : String) (found : Token)
  | unexpected (found : Token)
  | variableInConstant (name : String)
  | reservedEnumValue (found : Token)
  | describedShorthand
  | describedOther
  | nestedTooDeep
deriving DecidableEq

/-- A character in words: between quotes if it is printable ASCII, else
by its code point; the end of the text has words of its own. -/
def characterText : Option Char → String
  | none => "<EOF>"
  | some c =>
      let n := c.toNat
      if c = '"' then "'\"'"
      else if 0x20 ≤ n ∧ n ≤ 0x7e then "'" ++ String.singleton c ++ "'"
      else
        let ds := (Nat.toDigits 16 n).map Char.toUpper
        "U+" ++ String.ofList (List.replicate (4 - ds.length) '0' ++ ds)

namespace SyntaxFault

/-- The cause in words. -/
def message : SyntaxFault → String
  | .unexpectedCharacter c => s!"Unexpected character: {characterText (some c)}."
  | .singleQuote =>
      "Unexpected single quote character ('), did you mean to use a double quote (\")?"
  | .unterminatedString => "Unterminated string."
  | .digitExpected found =>
      s!"Invalid number, expected digit but got: {characterText found}."
  | .digitAfterZero found =>
      s!"Invalid number, unexpected digit after 0: {characterText found}."
  | .badEscape source => s!"Invalid character escape sequence: '{source}'."
  | .badUnicodeEscape source => s!"Invalid Unicode escape sequence: '{source}'."
  | .expected kind found => s!"Expected {kind}, found {found.description}."
  | .unexpected found => s!"Unexpected {found.description}."
  | .variableInConstant name => s!"Unexpected variable '${name}' in constant value."
  | .reservedEnumValue found =>
      s!"{found.description} is reserved and cannot be used for an enum value."
  | .describedShorthand =>
      "Unexpected description, descriptions are not supported on shorthand queries."
  | .describedOther =>
      "Unexpected description, only GraphQL definitions support descriptions."
  | .nestedTooDeep => "Document is nested too deeply. Parsing aborted."

end SyntaxFault

end ModelSchema.Graphql
