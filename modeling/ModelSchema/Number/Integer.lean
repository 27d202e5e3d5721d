/-
Whole numbers in words: a sign, then decimal digits of any script, where a
single low line may stand between two digits. Blanks around the number
are not part of it.
-/
import ModelSchema.Text.Blank
import ModelSchema.Text.Digit

namespace ModelSchema.Integer

/-- Why a text is no whole number that is read. -/
inductive Refusal where
  | malformed
  | tooLong (digits : Nat)
deriving DecidableEq

/-- The digits that a number may have. -/
def maxDigits : Nat := 4300

/-- Whether a character may stand around a number: the blanks without the
four information separators. -/
def isPadding (c : Char) : Bool :=
  Text.isBlank c && !(0x1c ≤ c.toNat && c.toNat ≤ 0x1f)

/-- The sign in front of a number, and the rest. -/
def splitSign : List Char → Bool × List Char
  | '-' :: rest => (true, rest)
  | '+' :: rest => (false, rest)
  | cs => (false, cs)

/-- The digits at the front of a text, with the rest of it; none if a low
line is not between two digits. -/
def digitRun : List Char → Option (List Nat × List Char)
  | [] => some ([], [])
  | [c] =>
      match Text.digitValue? c with
      | some d => some ([d], [])
      | none => some ([], [c])
  | c :: next :: rest =>
      match Text.digitValue? c with
      | none => some ([], c :: next :: rest)
      | some d =>
          if next = '_' then
            if (rest.head?.any Text.isDigit) then
              (digitRun rest).map fun (ds, left) => (d :: ds, left)
            else none
          else (digitRun (next :: rest)).map fun (ds, left) => (d :: ds, left)

/-- The number that decimal digits write. -/
def ofDigits (ds : List Nat) : Nat := ds.foldl (fun n d => n * 10 + d) 0

/-- Reads a whole number. The digits are counted before what follows them
is looked at. -/
def read (cs : List Char) : Except Refusal Int :=
  let (negative, cs) := splitSign (cs.dropWhile isPadding)
  match digitRun cs with
  | none | some ([], _) => .error .malformed
  | some (ds, rest) =>
      if maxDigits < ds.length then .error (.tooLong ds.length)
      else if !rest.all isPadding then .error .malformed
      else .ok (if negative then -(ofDigits ds : Int) else ofDigits ds)

/-- The whole number that a text writes, if there is one. -/
def read? (cs : List Char) : Option Int := (read cs).toOption

end ModelSchema.Integer
