/-
Floating-point numbers in words: a sign, digits with perhaps a point among
them, and perhaps an exponent. The digits are as in whole numbers, and so
are the blanks around them. Infinities have no digits and are not read.
-/
import ModelSchema.Number.Double
import ModelSchema.Number.Integer

namespace ModelSchema.Decimal

/-- The digits after a point, if there is one. -/
def readFraction : List Char → Option (List Nat × List Char)
  | '.' :: cs => Integer.digitRun cs
  | cs => some ([], cs)

/-- The exponent at the end of a number, zero if there is none. -/
def readExponent : List Char → Option (Int × List Char)
  | c :: cs =>
      if c = 'e' ∨ c = 'E' then
        let (negative, cs) := Integer.splitSign cs
        match Integer.digitRun cs with
        | none | some ([], _) => none
        | some (ds, cs) =>
            let n := Integer.ofDigits ds
            some (if negative then -(n : Int) else n, cs)
      else some (0, c :: cs)
  | [] => some (0, [])

/-- Reads the number nearest to a text. -/
def read? (cs : List Char) : Option Double := do
  let (negative, cs) := Integer.splitSign (cs.dropWhile Integer.isPadding)
  let (whole, cs) ← Integer.digitRun cs
  let (fraction, cs) ← readFraction cs
  if whole.isEmpty && fraction.isEmpty then none
  let (exponent, cs) ← readExponent cs
  if !cs.all Integer.isPadding then none
  return Double.ofDecimal negative (Integer.ofDigits (whole ++ fraction))
    (exponent - fraction.length)

end ModelSchema.Decimal
