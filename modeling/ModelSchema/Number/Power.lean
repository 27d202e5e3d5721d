/-
Powers of the two bases in which numbers are held and written.
-/
namespace ModelSchema

/-- Two to the power `n`. -/
def pow2 (n : Nat) : Nat := Nat.pow 2 n

/-- Ten to the power `n`. -/
def pow10 (n : Nat) : Nat := Nat.pow 10 n

end ModelSchema
