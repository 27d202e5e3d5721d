/-
The lines of a text. A line ends at a line feed, a carriage return (a
line feed right after it belongs to the same end), a vertical tab, a
form feed, one of the separators U+001C to U+001E, U+0085, U+2028 or
U+2029. An end that nothing follows opens no further line.
-/
namespace ModelSchema.Text

/-- Whether a character ends a line. -/
def isLineEnd (c : Char) : Bool :=
  let n := c.toNat
  (10 ≤ n && n ≤ 13) || (28 ≤ n && n ≤ 30) || n == 0x85 || n == 0x2028 || n == 0x2029

/-- The lines of a text, given the characters of the line that is open,
in reverse. -/
def linesFrom (opened : List Char) : List Char → List (List Char)
  | [] => if opened.isEmpty then [] else [opened.reverse]
  | '\r' :: '\n' :: rest => opened.reverse :: linesFrom [] rest
  | c :: rest =>
      if isLineEnd c then opened.reverse :: linesFrom [] rest
      else linesFrom (c :: opened) rest

/-- The lines of a text, without their ends. -/
def lines (s : String) : List String :=
  (linesFrom [] s.toList).map String.ofList

end ModelSchema.Text
