/-
Sets of characters given as closed intervals of code points.
-/
namespace ModelSchema.Text

/-- Whether a code point lies in one of the closed intervals. -/
def inIntervals (table : List (Nat × Nat)) (n : Nat) : Bool :=
  table.any fun r => r.1 ≤ n && n ≤ r.2

end ModelSchema.Text
