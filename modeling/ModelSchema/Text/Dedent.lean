/-
Texts from the source of a program: tabs are widened to columns of eight,
the lines after the first lose the indentation that they share, and empty
lines at both ends are dropped.
-/
import ModelSchema.Text.Blank

namespace ModelSchema.Text

-- ================================================================ tabs

/-- Widens tabs, given the column that is reached. -/
def expandTabsFrom (column : Nat) : List Char → List Char
  | [] => []
  | c :: cs =>
      if c = '\t' then
        let width := 8 - column % 8
        List.replicate width ' ' ++ expandTabsFrom (column + width) cs
      else if c = '\n' || c = '\r' then c :: expandTabsFrom 0 cs
      else c :: expandTabsFrom (column + 1) cs

/-- Widens the tabs of a text. -/
def expandTabs (cs : List Char) : List Char := expandTabsFrom 0 cs

-- ========================================================= indentation

/-- The pieces of a text between line feeds; there is at least one. -/
def splitLines (cs : List Char) : List (List Char) := cs.splitOn '\n'

/-- The indentation of a line, unless it is blank. -/
def indentation? (line : List Char) : Option Nat :=
  if line.all isBlank then none else some (line.takeWhile isBlank).length

/-- The indentation that lines share; blank lines do not count. -/
def sharedIndentation (lines : List (List Char)) : Nat :=
  ((lines.filterMap indentation?).min?).getD 0

/-- Drops empty lines at both ends. -/
def trimLines (lines : List (List Char)) : List (List Char) :=
  ((lines.dropWhile List.isEmpty).reverse.dropWhile List.isEmpty).reverse

/-- A text without the indentation that its place in a program gave
it. -/
def dedent (s : String) : String :=
  let lines :=
    match splitLines (expandTabs s.toList) with
    | [] => []
    | first :: rest =>
        first.dropWhile isBlank :: rest.map (List.drop (sharedIndentation rest))
  String.ofList (List.intercalate ['\n'] (trimLines lines))

end ModelSchema.Text
