/-
Block strings. The indentation that all lines but the first have in
common is removed, and so are the blank lines at the start and at the
end. Only spaces and tabs count as blank here.
-/
namespace ModelSchema.Graphql.BlockString

/-- Whether a character indents a line. -/
def isIndent (c : Char) : Bool := c = ' ' || c = '\t'

/-- The number of characters that indent a line. -/
def indentation (line : List Char) : Nat := (line.takeWhile isIndent).length

/-- Whether a line is blank. -/
def isBlankLine (line : List Char) : Bool := line.all isIndent

/-- The smallest indentation of the lines that are not blank. -/
def commonIndent (lines : List (List Char)) : Nat :=
  (((lines.filter fun l => !isBlankLine l).map indentation).min?).getD 0

/-- The lines that are left of a block string. -/
def dedent (lines : List (List Char)) : List (List Char) :=
  let n := commonIndent (lines.drop 1)
  let cut := lines.take 1 ++ (lines.drop 1).map (List.drop n)
  ((cut.dropWhile isBlankLine).reverse.dropWhile isBlankLine).reverse

/-- The text that the lines of a block string denote. -/
def value (lines : List (List Char)) : String :=
  String.ofList (List.intercalate ['\n'] (dedent lines))

end ModelSchema.Graphql.BlockString
