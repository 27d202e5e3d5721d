/-
The text of a floating-point number with the fewest digits that read
back as the same number; of two texts of that length the nearer one, and
on a tie the one with the even last digit.

The reals that read back as `m * 2 ^ q` are those between the midpoints
to its two neighbours, the midpoints included when `m` is even. For one
digit, two digits and so on up to seventeen, the value's two neighbours
on that decimal grid are tried in exact arithmetic.
-/
import ModelSchema.Number.Double

namespace ModelSchema.Double

/-- A decimal number `digits * 10 ^ exponent`. -/
structure Decimal where
  digits : Nat
  exponent : Int
deriving DecidableEq, Inhabited

-- ============================================================ digits

/-- The number of decimal digits. -/
def places (n : Nat) : Nat := (Nat.toDigits 10 n).length

/-- The exponent of the first digit of `num / den`. -/
def leadingPlace (num den : Nat) : Int :=
  let e : Int := (places num : Int) - places den
  let fits := if 0 ≤ e then den * pow10 e.toNat ≤ num else den ≤ num * pow10 (-e).toNat
  if fits then e else e - 1

/-- A value over a common denominator with the bounds of the numbers that
read back as it. -/
structure Bracket where
  low : Nat
  value : Nat
  high : Nat
  den : Nat
  closed : Bool

/-- The bracket of `m * 2 ^ q`, in quarters of the last place. Below a
power of two the neighbour is half as far away. -/
def bracket (m : Nat) (q : Int) : Bracket :=
  let below := if m = pow2 52 ∧ -1074 < q then 1 else 2
  let scale := q - 2
  let up := if 0 ≤ scale then pow2 scale.toNat else 1
  let den := if 0 ≤ scale then 1 else pow2 (-scale).toNat
  { low := (4 * m - below) * up
    value := 4 * m * up
    high := (4 * m + 2) * up
    den := den
    closed := m % 2 = 0 }

/-- Whether `digits * 10 ^ exponent` lies within the bracket. -/
def Bracket.holds (b : Bracket) (d : Decimal) : Bool :=
  let point := d.digits * pow10 d.exponent.toNat * b.den
  let unit := pow10 (-d.exponent).toNat
  if b.closed then b.low * unit ≤ point && point ≤ b.high * unit
  else b.low * unit < point && point < b.high * unit

/-- The best decimal on the grid `10 ^ exponent`, if one reads back. -/
def Bracket.onGrid? (b : Bracket) (exponent : Int) : Option Decimal :=
  let num := b.value * pow10 (-exponent).toNat
  let den := b.den * pow10 exponent.toNat
  let down : Decimal := ⟨num / den, exponent⟩
  let up : Decimal := ⟨num / den + 1, exponent⟩
  let near := if roundDiv num den = num / den then down else up
  let far := if roundDiv num den = num / den then up else down
  if b.holds near then some near else if b.holds far then some far else none

/-- The shortest decimal that reads back as `m * 2 ^ q`, where `m` is
positive. Seventeen digits always do. -/
def shortestDecimal (m : Nat) (q : Int) : Decimal :=
  let b := bracket m q
  let lead := leadingPlace b.value b.den
  ((List.range 17).findSome? fun n : Nat => b.onGrid? (lead - n)).getD default

-- ============================================================== text

/-- Digits without the zeros at their end, and the power of ten that
these stood for. -/
def dropZeros (ds : List Char) : List Char :=
  (ds.reverse.dropWhile (· == '0')).reverse

/-- A positive number written out: positionally when the exponent of its
first digit is from -4 to 15, with at least one digit after the point;
else in scientific notation, whose exponent has a sign and two digits or
more. -/
def layout (d : Decimal) : String :=
  let all := Nat.toDigits 10 d.digits
  let lead : Int := (all.length : Int) - 1 + d.exponent
  let ds := dropZeros all
  if -4 ≤ lead ∧ lead < 0 then
    String.ofList ("0.".toList ++ List.replicate ((-lead).toNat - 1) '0' ++ ds)
  else if 0 ≤ lead ∧ lead < 16 then
    let whole := lead.toNat + 1
    let fraction := ds.drop whole
    String.ofList
      ((ds ++ List.replicate (whole - ds.length) '0').take whole
        ++ '.' :: (if fraction.isEmpty then ['0'] else fraction))
  else
    let exponent := Nat.toDigits 10 lead.natAbs
    String.ofList
      (ds.take 1 ++ (if ds.length ≤ 1 then [] else '.' :: ds.drop 1)
        ++ 'e' :: (if lead < 0 then '-' else '+')
        :: (if exponent.length < 2 then '0' :: exponent else exponent))

/-- The shortest text of a number, infinities and what is no number
given in words. -/
def text (x : Double) : String :=
  match x.meaning with
  | .undefined => "nan"
  | .infinite negative => if negative then "-inf" else "inf"
  | .finite negative m q =>
      (if negative then "-" else "")
        ++ if m = 0 then "0.0" else layout (shortestDecimal m q)

end ModelSchema.Double
