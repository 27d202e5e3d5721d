/-
The tokens of GraphQL documents. A string token carries the text that it
denotes, its escapes read and its block indentation removed.
-/
namespace ModelSchema.Graphql

/-- Punctuation. -/
inductive Punct where
  | bang | dollar | amp | parenL | parenR | spread | colon | equals | at
  | bracketL | bracketR | braceL | pipe | braceR
deriving DecidableEq, Inhabited

/-- How a punctuation mark is written. -/
def Punct.text : Punct → String
  | .bang => "!"
  | .dollar => "$"
  | .amp => "&"
  | .parenL => "("
  | .parenR => ")"
  | .spread => "..."
  | .colon => ":"
  | .equals => "="
  | .at => "@"
  | .bracketL => "["
  | .bracketR => "]"
  | .braceL => "\x7b"
  | .pipe => "|"
  | .braceR => "\x7d"

/-- The mark that a single character is. -/
def Punct.ofChar? : Char → Option Punct
  | '!' => some .bang
  | '$' => some .dollar
  | '&' => some .amp
  | '(' => some .parenL
  | ')' => some .parenR
  | ':' => some .colon
  | '=' => some .equals
  | '@' => some .at
  | '[' => some .bracketL
  | ']' => some .bracketR
  | '\x7b' => some .braceL
  | '|' => some .pipe
  | '\x7d' => some .braceR
  | _ => none

/-- A token; `eof` stands for the end of the document. -/
inductive Token where
  | punct (p : Punct)
  | name (text : String)
  | int (text : String)
  | float (text : String)
  | string (value : String)
  | blockString (value : String)
  | eof
deriving DecidableEq, Inhabited

namespace Token

/-- The text that a token carries. -/
def value? : Token → Option String
  | .name text | .int text | .float text => some text
  | .string value | .blockString value => some value
  | .punct _ | .eof => none

/-- What kind of token it is, in words. -/
def kindText : Token → String
  | .punct p => "'" ++ p.text ++ "'"
  | .name _ => "Name"
  | .int _ => "Int"
  | .float _ => "Float"
  | .string _ => "String"
  | .blockString _ => "BlockString"
  | .eof => "<EOF>"

/-- A token in words: its kind, and the text it carries. -/
def description (t : Token) : String :=
  t.kindText ++ (match t.value? with | some v => " '" ++ v ++ "'" | none => "")

/-- Whether the token is a string of either form. -/
def isString : Token → Bool
  | .string _ | .blockString _ => true
  | _ => false

end Token

end ModelSchema.Graphql
