/-
Blank characters: the white space of the Unicode Standard together with
the four information separators U+001C to U+001F.
-/
import ModelSchema.Text.Interval

namespace ModelSchema.Text

/-- The blank code points. -/
def blankIntervals : List (Nat × Nat) :=
  [(9, 13), (28, 32), (0x85, 0x85), (0xa0, 0xa0), (0x1680, 0x1680),
    (0x2000, 0x200a), (0x2028, 0x2029), (0x202f, 0x202f), (0x205f, 0x205f),
    (0x3000, 0x3000)]

/-- Whether a character is blank. -/
def isBlank (c : Char) : Bool := inIntervals blankIntervals c.toNat

/-- Drops the characters of a class at both ends. -/
def trimBoth (drop : Char → Bool) (cs : List Char) : List Char :=
  ((cs.dropWhile drop).reverse.dropWhile drop).reverse

/-- Drops the blanks at both ends. -/
def strip (s : String) : String := String.ofList (trimBoth isBlank s.toList)

/-- Whether a text holds blanks only. -/
def isBlankText (s : String) : Bool := s.toList.all isBlank

end ModelSchema.Text
