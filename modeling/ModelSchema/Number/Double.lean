/-
Floating-point numbers of 64 bits, held as their bits. A finite one is
exactly a natural number times a power of two, and whatever is computed
here is computed from that pair: cutting off the fraction, and the
nearest number to a decimal text (a half goes to the even neighbour).
-/
import ModelSchema.Number.Power

namespace ModelSchema

/-- A floating-point number of 64 bits. -/
structure Double where
  bits : UInt64
deriving DecidableEq

namespace Double

-- ==================================================== what it denotes

/-- What the bits say: a signed `m * 2 ^ q`, an infinity, or no number. -/
inductive Meaning where
  | finite (negative : Bool) (m : Nat) (q : Int)
  | infinite (negative : Bool)
  | undefined
deriving DecidableEq

/-- Whether the sign bit is set. -/
def negative (x : Double) : Bool := pow2 63 ≤ x.bits.toNat

/-- The eleven bits of the exponent. -/
def exponentBits (x : Double) : Nat := x.bits.toNat / pow2 52 % pow2 11

/-- The low fifty-two bits. -/
def fractionBits (x : Double) : Nat := x.bits.toNat % pow2 52

/-- The number that the bits stand for. -/
def meaning (x : Double) : Meaning :=
  if x.exponentBits = 2047 then
    if x.fractionBits = 0 then .infinite x.negative else .undefined
  else if x.exponentBits = 0 then
    .finite x.negative x.fractionBits (-1074)
  else
    .finite x.negative (pow2 52 + x.fractionBits) (x.exponentBits - 1075)

/-- Whether the number is a zero of either sign. -/
def isZero (x : Double) : Bool := x.bits.toNat % pow2 63 = 0

/-- The bits that stand for no number. -/
def undefined : Double := ⟨0x7ff8000000000000⟩

/-- Whether the bits stand for a number at all, and no infinity. -/
def isFinite (x : Double) : Bool :=
  match x.meaning with
  | .finite .. => true
  | _ => false

-- ============================================== whole part and equality

/-- An unsigned pair without its fraction. -/
def wholePart (m : Nat) (q : Int) : Nat :=
  if 0 ≤ q then m * pow2 q.toNat else m / pow2 (-q).toNat

/-- The number without its fraction, `none` if it is not finite. -/
def truncate? (x : Double) : Option Int :=
  match x.meaning with
  | .finite negative m q =>
      some (if negative then -(wholePart m q : Int) else wholePart m q)
  | _ => none

/-- Whether the number is exactly the integer `n`. -/
def equalsInt (x : Double) (n : Int) : Bool :=
  match x.meaning with
  | .finite negative m q =>
      let whole := wholePart m q
      (0 ≤ q || whole * pow2 (-q).toNat == m)
        && (if negative then -(whole : Int) else whole) == n
  | _ => false

/-- The integer that the number is, `none` if it has a fraction or is not
finite. -/
def toInt? (x : Double) : Option Int := x.truncate?.filter x.equalsInt

/-- Whether two numbers are equal: the zeros are, and what is no number
is equal to nothing. -/
def equals (x y : Double) : Bool :=
  (x.isZero && y.isZero) || (x.bits == y.bits && x.meaning != .undefined)

-- ============================================== the nearest number

/-- `num / den` as a whole number; a half goes to the even neighbour. -/
def roundDiv (num den : Nat) : Nat :=
  let whole := num / den
  let twice := 2 * (num % den)
  if twice < den then whole
  else if den < twice then whole + 1
  else whole + whole % 2

/-- The greatest `e` with `2 ^ e ≤ num / den`. -/
def log2Ratio (num den : Nat) : Int :=
  let e : Int := (Nat.log2 num : Int) - Nat.log2 den
  let fits := if 0 ≤ e then den * pow2 e.toNat ≤ num else den ≤ num * pow2 (-e).toNat
  if fits then e else e - 1

/-- The number nearest to `num / den`, where `den` is positive. Past the
greatest finite number it is the infinity. -/
def ofRatio (negative : Bool) (num den : Nat) : Double :=
  let sign := if negative then pow2 63 else 0
  if num = 0 then ⟨UInt64.ofNat sign⟩
  else
    let q := max (log2Ratio num den - 52) (-1074)
    let m :=
      if 0 ≤ q then roundDiv num (den * pow2 q.toNat)
      else roundDiv (num * pow2 (-q).toNat) den
    let magnitude := min ((q + 1074).toNat * pow2 52 + m) (2047 * pow2 52)
    ⟨UInt64.ofNat (sign + magnitude)⟩

/-- The number nearest to `digits * 10 ^ exponent`. Exponents far beyond
the range are cut short, as they cannot change the answer. -/
def ofDecimal (negative : Bool) (digits : Nat) (exponent : Int) : Double :=
  let places : Int := (Nat.toDigits 10 digits).length
  if digits = 0 || places + exponent < -400 then ofRatio negative 0 1
  else if 400 < places + exponent then ofRatio negative (pow2 1100) 1
  else if 0 ≤ exponent then ofRatio negative (digits * pow10 exponent.toNat) 1
  else ofRatio negative digits (pow10 (-exponent).toNat)

end Double

end ModelSchema
