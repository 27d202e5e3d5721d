/-
From characters to tokens. Spaces, tabs, commas, byte order marks, line
ends and comments stand between tokens and are skipped. The tokens of a
text are read up to its end or up to the first place that is no token;
what is wrong there is kept beside the tokens before it, since a parser
may refuse the text earlier.
-/
import ModelSchema.Graphql.BlockString
import ModelSchema.Graphql.SyntaxFault

namespace ModelSchema.Graphql

-- ================================================= classes of characters

/-- Whether a character starts a name. -/
def isNameStart (c : Char) : Bool := c.isAlpha || c == '_'

/-- Whether a character may stand in a name. -/
def isNamePart (c : Char) : Bool := c.isAlphanum || c == '_'

/-- The class of names: a letter or underscore, then letters, digits and
underscores, all in ASCII. -/
def isName (s : String) : Bool :=
  match s.toList with
  | [] => false
  | c :: rest => isNameStart c && rest.all isNamePart

/-- Skips what stands between tokens; inside a comment everything up to
the end of the line. -/
def skipIgnored (inComment : Bool) : List Char → List Char
  | [] => []
  | c :: rest =>
      if c = '\n' ∨ c = '\r' then skipIgnored false rest
      else if inComment then skipIgnored true rest
      else if c = ' ' ∨ c = '\t' ∨ c = ',' ∨ c = '\ufeff' then skipIgnored false rest
      else if c = '#' then skipIgnored true rest
      else c :: rest

-- ============================================================== numbers

/-- One digit or more, and what follows. -/
def readDigits (cs : List Char) : Except SyntaxFault (List Char × List Char) :=
  if cs.head?.any Char.isDigit then .ok (cs.takeWhile Char.isDigit, cs.dropWhile Char.isDigit)
  else .error (.digitExpected cs.head?)

/-- The whole part of a number: a zero alone, or digits. -/
def readWhole : List Char → Except SyntaxFault (List Char × List Char)
  | '0' :: rest =>
      if rest.head?.any Char.isDigit then .error (.digitAfterZero rest.head?)
      else .ok (['0'], rest)
  | cs => readDigits cs

/-- The sign of a number, if it has one, and what follows. -/
def signOf : List Char → List Char × List Char
  | '-' :: rest => (['-'], rest)
  | cs => ([], cs)

/-- The fraction of a number with its point, if it has one. -/
def readFraction : List Char → Except SyntaxFault (List Char × List Char)
  | '.' :: rest => do
      let (ds, rest) ← readDigits rest
      return ('.' :: ds, rest)
  | cs => .ok ([], cs)

/-- The sign of an exponent, if it has one, and what follows. -/
def exponentSign : List Char → List Char × List Char
  | '+' :: rest => (['+'], rest)
  | '-' :: rest => (['-'], rest)
  | cs => ([], cs)

/-- The exponent of a number with its letter, if it has one. -/
def readExponent : List Char → Except SyntaxFault (List Char × List Char)
  | [] => .ok ([], [])
  | c :: rest =>
      if c = 'e' ∨ c = 'E' then do
        let (sign, rest) := exponentSign rest
        let (ds, rest) ← readDigits rest
        return (c :: sign ++ ds, rest)
      else .ok ([], c :: rest)

/-- The number of these parts, before what follows it. Neither a point nor
a name may follow at once. -/
def endNumber (sign whole fraction exponent cs : List Char) :
    Except SyntaxFault (Token × List Char) :=
  if cs.head?.any fun c => c = '.' || isNameStart c then .error (.digitExpected cs.head?)
  else
    let text := String.ofList (sign ++ whole ++ fraction ++ exponent)
    .ok (if fraction.isEmpty && exponent.isEmpty then .int text else .float text, cs)

/-- A number. -/
def readNumber (cs : List Char) : Except SyntaxFault (Token × List Char) := do
  let (sign, cs) := signOf cs
  let (whole, cs) ← readWhole cs
  let (fraction, cs) ← readFraction cs
  let (exponent, cs) ← readExponent cs
  endNumber sign whole fraction exponent cs

-- ============================================================== strings

/-- The value of a hexadecimal digit. -/
def hexValue? (c : Char) : Option Nat :=
  if c.isDigit then some (c.toNat - 48)
  else if 'a' ≤ c ∧ c ≤ 'f' then some (c.toNat - 87)
  else if 'A' ≤ c ∧ c ≤ 'F' then some (c.toNat - 55)
  else none

/-- The number that the first four characters write in hexadecimal. -/
def hexCode? (cs : List Char) : Option Nat :=
  match cs with
  | a :: b :: c :: d :: _ => do
      return (((← hexValue? a) * 16 + (← hexValue? b)) * 16 + (← hexValue? c)) * 16
        + (← hexValue? d)
  | _ => none

/-- Whether a code point is that of a character. -/
def isScalarValue (n : Nat) : Bool := n < 0xd800 || (0xe000 ≤ n && n < 0x110000)

/-- The character of an escape by a code point between braces, and the
size of the escape, given the part before the digits that are left and
the code point so far. At most twelve characters are looked at. -/
def readBraced (source : List Char) (point size : Nat) :
    List Char → Except SyntaxFault (Char × Nat)
  | [] => .error (.badUnicodeEscape (String.ofList (source.take size)))
  | c :: rest =>
      let fail := .error (.badUnicodeEscape (String.ofList (source.take (size + 1))))
      if c = '\x7d' then
        if size < 4 || !isScalarValue point then fail else .ok (Char.ofNat point, size + 1)
      else
        match hexValue? c with
        | some d => readBraced source (point * 16 + d) (size + 1) rest
        | none => fail

/-- The character of an escape by four hexadecimal digits, or by two such
escapes for the halves of a pair, and the size of the escape. -/
def readFixed (source : List Char) : Except SyntaxFault (Char × Nat) :=
  let fail := .error (.badUnicodeEscape (String.ofList (source.take 6)))
  match hexCode? (source.drop 2) with
  | none => fail
  | some high =>
      if isScalarValue high then .ok (Char.ofNat high, 6)
      else if high < 0xdc00 && source[6]? == some '\\' && source[7]? == some 'u' then
        match hexCode? (source.drop 8) with
        | some low =>
            if 0xdc00 ≤ low && low < 0xe000 then
              .ok (Char.ofNat (0x10000 + (high - 0xd800) * 0x400 + (low - 0xdc00)), 12)
            else fail
        | none => fail
      else fail

/-- The character of an escape, and its size, given the text from the
backslash on. -/
def readEscape (source : List Char) : Except SyntaxFault (Char × Nat) :=
  match source with
  | _ :: 'u' :: '\x7b' :: rest => readBraced source 0 3 (rest.take 9)
  | _ :: 'u' :: _ => readFixed source
  | _ :: '"' :: _ => .ok ('"', 2)
  | _ :: '\\' :: _ => .ok ('\\', 2)
  | _ :: '/' :: _ => .ok ('/', 2)
  | _ :: 'b' :: _ => .ok ('\x08', 2)
  | _ :: 'f' :: _ => .ok ('\x0c', 2)
  | _ :: 'n' :: _ => .ok ('\n', 2)
  | _ :: 'r' :: _ => .ok ('\r', 2)
  | _ :: 't' :: _ => .ok ('\t', 2)
  | _ => .error (.badEscape (String.ofList (source.take 2)))

/-- A string after its opening quote, given what is read so far in reverse
and how many characters of an escape are still to be passed over. -/
def readString (acc : List Char) (passing : Nat) :
    List Char → Except SyntaxFault (Token × List Char)
  | [] => .error .unterminatedString
  | c :: rest =>
      match passing with
      | n + 1 => readString acc n rest
      | 0 =>
          if c = '"' then .ok (.string (String.ofList acc.reverse), rest)
          else if c = '\n' ∨ c = '\r' then .error .unterminatedString
          else if c = '\\' then
            match readEscape (c :: rest) with
            | .ok (d, size) => readString (d :: acc) (size - 1) rest
            | .error e => .error e
          else readString (c :: acc) 0 rest

/-- A block string after its opening quotes, given its current line and
the lines before it, both in reverse. -/
def readBlockString (line : List Char) (before : List (List Char)) :
    List Char → Except SyntaxFault (Token × List Char)
  | [] => .error .unterminatedString
  | '"' :: '"' :: '"' :: rest =>
      .ok (.blockString (BlockString.value (line.reverse :: before).reverse), rest)
  | '\\' :: '"' :: '"' :: '"' :: rest =>
      readBlockString ('"' :: '"' :: '"' :: line) before rest
  | '\r' :: '\n' :: rest => readBlockString [] (line.reverse :: before) rest
  | c :: rest =>
      if c = '\n' ∨ c = '\r' then readBlockString [] (line.reverse :: before) rest
      else readBlockString (c :: line) before rest

-- =============================================================== tokens

/-- The token that starts with a character, and what follows it. -/
def readToken (c : Char) (rest : List Char) : Except SyntaxFault (Token × List Char) :=
  match Punct.ofChar? c with
  | some p => .ok (.punct p, rest)
  | none =>
      if c = '"' then
        match rest with
        | '"' :: '"' :: rest => readBlockString [] [] rest
        | _ => readString [] 0 rest
      else if c.isDigit || c = '-' then readNumber (c :: rest)
      else if isNameStart c then
        .ok (.name (String.ofList (c :: rest.takeWhile isNamePart)), rest.dropWhile isNamePart)
      else if c = '.' then
        match rest with
        | '.' :: '.' :: rest => .ok (.punct .spread, rest)
        | _ => .error (.unexpectedCharacter c)
      else if c = '\x27' then .error .singleQuote
      else .error (.unexpectedCharacter c)

/-- Tokens up to the end of a text, or up to a fault. -/
structure Lexed where
  tokens : List Token
  fault : Option SyntaxFault
deriving Inhabited

/-- Puts a token before others. -/
def Lexed.cons (t : Token) (l : Lexed) : Lexed := { l with tokens := t :: l.tokens }

/-- The tokens of a text. Every token takes a character or more, so the
length of the text is fuel enough. -/
def lexWith : (fuel : Nat) → List Char → Lexed
  | 0, _ => ⟨[], none⟩
  | fuel + 1, cs =>
      match skipIgnored false cs with
      | [] => ⟨[], none⟩
      | c :: rest =>
          match readToken c rest with
          | .ok (t, rest) => (lexWith fuel rest).cons t
          | .error e => ⟨[], some e⟩

/-- The tokens of a text. -/
def lex (s : String) : Lexed := lexWith (s.toList.length + 1) s.toList

end ModelSchema.Graphql
