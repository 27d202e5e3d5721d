/-
Upper and lower case of whole texts, by the full case mappings: a letter
may turn into several, and a capital sigma at the end of a word turns
into the final small one.
-/
import ModelSchema.Text.Interval
import ModelSchema.Text.Case.Table

namespace ModelSchema.Text

-- ================================================== single letters

/-- The image of a code point in a table of runs. -/
def runImage? (table : List (Nat × Nat × Nat × Nat)) (n : Nat) : Option Nat :=
  (table.find? fun (first, last, step, _) =>
      first ≤ n && n ≤ last && (n - first) % step == 0).map
    fun (first, _, _, image) => image + (n - first)

/-- The letters that stand for a letter, first by the expanding letters,
then by the runs, else the letter itself. -/
def mapLetter (expansions : List (Nat × List Nat))
    (table : List (Nat × Nat × Nat × Nat)) (c : Char) : List Char :=
  match expansions.lookup c.toNat with
  | some letters => letters.map Char.ofNat
  | none =>
      match runImage? table c.toNat with
      | some n => [Char.ofNat n]
      | none => [c]

/-- Upper case of one character; an ASCII letter needs no table. -/
def upperChar (c : Char) : List Char :=
  if c.toNat < 128 then [c.toUpper]
  else mapLetter Case.upperExpansions Case.upperRuns c

/-- Lower case of one character, whatever stands next to it. -/
def lowerChar (c : Char) : List Char :=
  if c.toNat < 128 then [c.toLower]
  else mapLetter Case.lowerExpansions Case.lowerRuns c

/-- The code point that a letter counts as when letter case is ignored
in a search: its single lower-case letter, where the dotted capital I
counts as a plain one. -/
def simpleLower (c : Char) : Char :=
  if c.toNat < 128 then c.toLower
  else if c.toNat = 0x130 then 'i'
  else ((runImage? Case.lowerRuns c.toNat).map Char.ofNat).getD c

-- ====================================================== whole texts

/-- Upper case of a text. -/
def upper (s : String) : String := String.ofList (s.toList.flatMap upperChar)

/-- Whether the first letter that is not skipped has case. -/
def startsCased (cs : List Char) : Bool :=
  match cs.dropWhile fun c => inIntervals Case.ignorableIntervals c.toNat with
  | [] => false
  | c :: _ => inIntervals Case.casedIntervals c.toNat

/-- Lower case of a text, given the characters before it in reverse. -/
def lowerFrom (before : List Char) : List Char → List Char
  | [] => []
  | c :: rest =>
      (if c.toNat = 0x3a3 then
          if startsCased before && !startsCased rest then [Char.ofNat 0x3c2]
          else [Char.ofNat 0x3c3]
        else lowerChar c) ++ lowerFrom (c :: before) rest

/-- Lower case of a text. -/
def lower (s : String) : String := String.ofList (lowerFrom [] s.toList)

end ModelSchema.Text
