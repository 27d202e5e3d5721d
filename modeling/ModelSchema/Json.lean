/-
Configuration documents as JSON. Reading keeps the keys of an object in
the order in which they are written; a number with a point or an exponent
is a floating-point number, any other an integer of whatever size. What
is written reads back as the same value.
-/
import ModelSchema.Number.Shortest
import ModelSchema.Text.Quoted
import ModelSchema.Value

namespace ModelSchema.Json

-- ============================================================ writing

mutual

/-- A value as JSON; a value that JSON has no form for is written as
null. -/
def write : Value → String
  | .null => "null"
  | .bool b => if b then "true" else "false"
  | .int n => toString n
  | .float x =>
      match x.meaning with
      | .undefined => "NaN"
      | .infinite negative => if negative then "-Infinity" else "Infinity"
      | .finite .. => x.text
  | .str s => Text.quoted s
  | .list items => "[" ++ String.intercalate "," (writeItems items) ++ "]"
  | .map entries => "\x7b" ++ String.intercalate "," (writeEntries entries) ++ "\x7d"
  | _ => "null"

/-- `write`, item by item. -/
def writeItems : List Value → List String
  | [] => []
  | v :: rest => write v :: writeItems rest

/-- Keys and values with a colon between them. -/
def writeEntries : List (String × Value) → List String
  | [] => []
  | (k, v) :: rest => (Text.quoted k ++ ":" ++ write v) :: writeEntries rest

end

-- ============================================================ reading

/-- Skips blanks between tokens. -/
def skipBlanks : List Char → List Char
  | [] => []
  | c :: rest =>
      if c = ' ' ∨ c = '\t' ∨ c = '\n' ∨ c = '\r' then skipBlanks rest else c :: rest

/-- The value of a hexadecimal digit. -/
def hexValue? (c : Char) : Option Nat :=
  if c.isDigit then some (c.toNat - 48)
  else if 'a' ≤ c ∧ c ≤ 'f' then some (c.toNat - 87)
  else if 'A' ≤ c ∧ c ≤ 'F' then some (c.toNat - 55)
  else none

/-- The unit that four hexadecimal digits stand for. -/
def unit? (a b c d : Char) : Option Nat := do
  return (((← hexValue? a) * 16 + (← hexValue? b)) * 16 + (← hexValue? c)) * 16
    + (← hexValue? d)

/-- The characters of UTF-16 units; a half of a pair that stands alone
becomes the replacement character. -/
def ofUnits16 : List Nat → List Char
  | [] => []
  | [u] => [if 0xd800 ≤ u ∧ u < 0xe000 then Char.ofNat 0xfffd else Char.ofNat u]
  | u :: v :: rest =>
      if 0xd800 ≤ u ∧ u < 0xdc00 ∧ 0xdc00 ≤ v ∧ v < 0xe000 then
        Char.ofNat (0x10000 + (u - 0xd800) * 0x400 + (v - 0xdc00)) :: ofUnits16 rest
      else if 0xd800 ≤ u ∧ u < 0xe000 then Char.ofNat 0xfffd :: ofUnits16 (v :: rest)
      else Char.ofNat u :: ofUnits16 (v :: rest)

/-- The units of a text up to its closing quote, collected in reverse, and
what follows the quote. -/
def readUnits (acc : List Nat) : List Char → Option (List Nat × List Char)
  | [] => none
  | '"' :: rest => some (acc.reverse, rest)
  | '\\' :: 'u' :: a :: b :: c :: d :: rest =>
      match unit? a b c d with
      | some u => readUnits (u :: acc) rest
      | none => none
  | '\\' :: c :: rest =>
      match c with
      | 'n' => readUnits (10 :: acc) rest
      | 'r' => readUnits (13 :: acc) rest
      | 't' => readUnits (9 :: acc) rest
      | 'b' => readUnits (8 :: acc) rest
      | 'f' => readUnits (12 :: acc) rest
      | '"' => readUnits (34 :: acc) rest
      | '\\' => readUnits (92 :: acc) rest
      | '/' => readUnits (47 :: acc) rest
      | _ => none
  | c :: rest => readUnits ((Text.units16 c).reverse ++ acc) rest

/-- A text up to its closing quote, and what follows it. -/
def readText (cs : List Char) : Option (String × List Char) :=
  (readUnits [] cs).map fun (units, rest) => (String.ofList (ofUnits16 units), rest)

/-- The number that digits stand for. -/
def natOf (ds : List Char) : Nat := ds.foldl (fun n d => n * 10 + (d.toNat - 48)) 0

/-- A number and what follows it. -/
def readNumber (cs : List Char) : Option (Value × List Char) :=
  let (negative, cs) := match cs with
    | '-' :: rest => (true, rest)
    | _ => (false, cs)
  let whole := cs.takeWhile Char.isDigit
  let afterWhole := cs.dropWhile Char.isDigit
  let (fraction, afterFraction, pointed) := match afterWhole with
    | '.' :: rest => (rest.takeWhile Char.isDigit, rest.dropWhile Char.isDigit, true)
    | _ => ([], afterWhole, false)
  let (exponent, rest, scaled) : Int × List Char × Bool := match afterFraction with
    | 'e' :: '-' :: r | 'E' :: '-' :: r =>
        (-(natOf (r.takeWhile Char.isDigit) : Int), r.dropWhile Char.isDigit, true)
    | 'e' :: '+' :: r | 'E' :: '+' :: r | 'e' :: r | 'E' :: r =>
        (natOf (r.takeWhile Char.isDigit), r.dropWhile Char.isDigit, true)
    | _ => (0, afterFraction, false)
  if whole.isEmpty then none
  else if pointed || scaled then
    some (.float (Double.ofDecimal negative (natOf (whole ++ fraction))
      (exponent - fraction.length)), rest)
  else
    let n : Int := natOf whole
    some (.int (if negative then -n else n), rest)

mutual

/-- A value and what follows it. The fuel bounds the depth and the length
of lists; the length of the text is always enough. -/
def readValue : (fuel : Nat) → List Char → Option (Value × List Char)
  | 0, _ => none
  | fuel + 1, cs =>
      match skipBlanks cs with
      | 'n' :: 'u' :: 'l' :: 'l' :: rest => some (.null, rest)
      | 't' :: 'r' :: 'u' :: 'e' :: rest => some (.bool true, rest)
      | 'f' :: 'a' :: 'l' :: 's' :: 'e' :: rest => some (.bool false, rest)
      | '"' :: rest => (readText rest).map fun (s, rest) => (.str s, rest)
      | '[' :: rest =>
          match skipBlanks rest with
          | ']' :: rest => some (.list [], rest)
          | rest => (readItems fuel rest).map fun (items, rest) => (.list items, rest)
      | '\x7b' :: rest =>
          match skipBlanks rest with
          | '\x7d' :: rest => some (.map [], rest)
          | rest => (readEntries fuel rest).map fun (entries, rest) => (.map entries, rest)
      | 'N' :: 'a' :: 'N' :: rest => some (.float ⟨0x7ff8000000000000⟩, rest)
      | 'I' :: 'n' :: 'f' :: 'i' :: 'n' :: 'i' :: 't' :: 'y' :: rest =>
          some (.float ⟨0x7ff0000000000000⟩, rest)
      | '-' :: 'I' :: 'n' :: 'f' :: 'i' :: 'n' :: 'i' :: 't' :: 'y' :: rest =>
          some (.float ⟨0xfff0000000000000⟩, rest)
      | cs => readNumber cs

/-- Items up to the closing bracket. -/
def readItems : (fuel : Nat) → List Char → Option (List Value × List Char)
  | 0, _ => none
  | fuel + 1, cs => do
      let (v, rest) ← readValue fuel cs
      match skipBlanks rest with
      | ',' :: rest =>
          let (items, rest) ← readItems fuel rest
          return (v :: items, rest)
      | ']' :: rest => return ([v], rest)
      | _ => none

/-- Entries up to the closing brace. -/
def readEntries : (fuel : Nat) → List Char → Option (List (String × Value) × List Char)
  | 0, _ => none
  | fuel + 1, cs => do
      let '"' :: rest := skipBlanks cs | none
      let (key, rest) ← readText rest
      let ':' :: rest := skipBlanks rest | none
      let (v, rest) ← readValue fuel rest
      match skipBlanks rest with
      | ',' :: rest =>
          let (entries, rest) ← readEntries fuel rest
          return ((key, v) :: entries, rest)
      | '\x7d' :: rest => return ([(key, v)], rest)
      | _ => none

end

/-- The value that a text is the JSON of. -/
def read (s : String) : Option Value :=
  match readValue (s.length + 2) s.toList with
  | some (v, rest) => if (skipBlanks rest).isEmpty then some v else none
  | none => none

end ModelSchema.Json
