/-
English plurals and singulars by ordered rules. A rule speaks of words
that end in one of its forms; a form is a kept part and a lost part, and
the lost part is replaced by the rule's ending. The first rule with a
fitting form applies, the longest of its fitting forms is taken, and the
kept part stays as it was written while the ending is written as in the
rule. Letter case is ignored, which lets the long s fit an s and the
letters i with and without a dot fit each other.

A line feed at the very end is not part of the last word: the word is
what stands before it.
-/
import ModelSchema.Text.Case
import ModelSchema.Text.Word

namespace ModelSchema.Naming

-- ====================================================== fitting letters

/-- The letters that a letter of a rule stands for, compared in lower
case. -/
def twins (c : Char) : List Char :=
  if c = 'i' then ['i', Char.ofNat 0x131]
  else if c = 's' then ['s', Char.ofNat 0x17f]
  else [c]

/-- Whether a character is a letter of the list, ignoring case. -/
def isOneOf (letters : List Char) (c : Char) : Bool :=
  (letters.flatMap twins).contains (Text.simpleLower c)

/-- What one character of a word has to be. -/
inductive Piece where
  /-- One of these, ignoring case. -/
  | oneOf (letters : List Char)
  /-- None of these, ignoring case. -/
  | noneOf (letters : List Char)
  /-- One of these as written. -/
  | exactly (letters : List Char)

/-- Whether a character fits a piece. -/
def Piece.fits : Piece → Char → Bool
  | .oneOf letters, c => isOneOf letters c
  | .noneOf letters, c => !isOneOf letters c
  | .exactly letters, c => letters.contains c

/-- Whether characters fit pieces, one by one. -/
def fitsAll : List Piece → List Char → Bool
  | [], [] => true
  | p :: ps, c :: cs => p.fits c && fitsAll ps cs
  | _, _ => false

/-- Whether a list of characters ends in pieces. -/
def endsIn (pieces : List Piece) (cs : List Char) : Bool :=
  pieces.length ≤ cs.length && fitsAll pieces (cs.drop (cs.length - pieces.length))

/-- The pieces of a plain word. -/
def letters (s : String) : List Piece := s.toList.map fun c => .oneOf [c]

-- ================================================================ rules

/-- The two parts of a form. -/
structure Form where
  kept : List Piece
  lost : List Piece

/-- A rule: its forms, its ending, and whether a form must be the whole
word. -/
structure Rule where
  forms : List Form
  ending : String
  whole : Bool

/-- The rule of all kept parts with all lost parts. -/
def ruleOf (kept lost : List (List Piece)) (ending : String) : Rule :=
  ⟨kept.flatMap fun k => lost.map fun l => ⟨k, l⟩, ending, false⟩

/-- The rule of words given by their letters. -/
def rule (kept lost : List String) (ending : String) : Rule :=
  ruleOf (kept.map letters) (lost.map letters) ending

/-- A rule of whole words. -/
def wholeRule (kept lost : List String) (ending : String) : Rule :=
  { rule kept lost ending with whole := true }

/-- The longest fitting form of a rule. -/
def Rule.form? (r : Rule) (cs : List Char) : Option Form :=
  r.forms.foldl
    (fun best f =>
      let n := f.kept.length + f.lost.length
      if endsIn (f.kept ++ f.lost) cs && (!r.whole || n == cs.length) then
        match best with
        | some b => if b.kept.length + b.lost.length < n then some f else best
        | none => some f
      else best)
    none

/-- A word by a rule, if the rule speaks of it. -/
def Rule.apply? (r : Rule) (cs : List Char) : Option (List Char) :=
  (r.form? cs).map fun f => cs.take (cs.length - f.lost.length) ++ r.ending.toList

-- ====================================================== irregular words

/-- Singulars and plurals that start with the same letter, up to the one
pair that does not. -/
def irregularsBefore : List (String × String) := [("zombie", "zombies")]

/-- The pairs after it. -/
def irregularsAfter : List (String × String) :=
  [("move", "moves"), ("sex", "sexes"), ("child", "children"), ("human", "humans"),
    ("man", "men"), ("person", "people")]

/-- A text without its first character. -/
def tailOf (s : String) : String := String.ofList (s.toList.drop 1)

/-- The first character of a text. -/
def headOf (s : String) : String := String.ofList (s.toList.take 1)

/-- Both forms of a pair become the plural. -/
def pluralRules (pair : String × String) : List Rule :=
  [rule [headOf pair.2] [tailOf pair.2] (tailOf pair.2),
    rule [headOf pair.1] [tailOf pair.1] (tailOf pair.2)]

/-- The plural of a pair becomes the singular. -/
def singularRule (pair : String × String) : Rule :=
  rule [headOf pair.2] [tailOf pair.2] (tailOf pair.1)

/-- A first letter as written, then letters in either case. -/
def cased (first : Char) (rest : List Char) : List Piece :=
  .exactly [first] :: rest.map fun c => .exactly [c, c.toUpper]

/-- A word with this first letter becomes another word. -/
def casedRule (first : Char) (rest : String) (ending : String) : Rule :=
  ruleOf [[]] [cased first rest.toList] ending

-- ========================================================== the rule sets

/-- A letter that is no vowel, or the sound qu. -/
def consonants : List (List Piece) :=
  [[.noneOf ['a', 'e', 'i', 'o', 'u', 'y']], letters "qu"]

/-- The rules of plurals, but for the last one, which puts an s at the
end. -/
def pluralTable : List Rule :=
  irregularsBefore.flatMap pluralRules
    ++ [casedRule 'k' "ine" "kine", casedRule 'K' "ine" "Kine",
      casedRule 'c' "ow" "kine", casedRule 'C' "ow" "Kine"]
    ++ irregularsAfter.flatMap pluralRules
    ++ [rule ["quiz"] [""] "zes",
      wholeRule ["oxen"] [""] "",
      wholeRule ["ox"] [""] "en",
      rule ["m", "l"] ["ice"] "ice",
      rule ["m", "l"] ["ouse"] "ice",
      rule ["passer"] ["sby", "by"] "sby",
      rule ["matr", "vert", "ind"] ["ix", "ex"] "ices",
      rule ["x", "ch", "ss", "sh"] [""] "es",
      ruleOf consonants [letters "y"] "ies",
      rule ["hive"] [""] "s",
      rule ["l", "r"] ["f"] "ves",
      ruleOf [[.noneOf ['f']]] [letters "fe"] "ves",
      rule [""] ["sis"] "ses",
      rule ["t", "i"] ["a"] "a",
      rule ["t", "i"] ["um"] "a",
      rule ["buffal", "potat", "tomat"] ["o"] "oes",
      rule ["bu"] ["s"] "ses",
      rule ["alias", "status"] [""] "es",
      rule ["octop", "vir"] ["i"] "i",
      rule ["octop", "vir"] ["us"] "i",
      wholeRule ["ax", "test"] ["is"] "es",
      rule [""] ["s"] "s"]

/-- The two forms of many learned words on -sis. -/
def sisRule (kept lost ending : String) : Rule :=
  rule [kept] [lost ++ "sis", lost ++ "ses"] (ending ++ "sis")

/-- The rules of singulars before the one that looks at the start of a
word. -/
def singularTableBefore : List Rule :=
  irregularsBefore.map singularRule
    ++ [casedRule 'k' "ine" "cow", casedRule 'K' "ine" "Cow"]
    ++ irregularsAfter.map singularRule
    ++ [rule ["database"] ["s"] "",
      rule ["quiz"] ["zes"] "",
      rule ["matr"] ["ices"] "ix",
      rule ["vert", "ind"] ["ices"] "ex",
      rule ["passer"] ["sby"] "by"]

/-- The rules of singulars after it. -/
def singularTableAfter : List Rule :=
  [rule ["alias", "status"] ["es", ""] "",
    rule ["octop", "vir"] ["us", "i"] "us",
    { ruleOf [letters "a"] [letters "xis", letters "xes"] "xis" with whole := true },
    rule ["cris", "test"] ["is", "es"] "is",
    rule ["shoe"] ["s"] "",
    rule ["o"] ["es"] "",
    rule ["bus"] ["es", ""] "",
    rule ["m", "l"] ["ice"] "ouse",
    rule ["x", "ch", "ss", "sh"] ["es"] "",
    rule ["m"] ["ovies"] "ovie",
    rule ["s"] ["eries"] "eries",
    ruleOf consonants [letters "ies"] "y",
    rule ["l", "r"] ["ves"] "f",
    rule ["tive"] ["s"] "",
    rule ["hive"] ["s"] "",
    ruleOf [[.noneOf ['f']]] [letters "ves"] "fe",
    sisRule "t" "he" "he",
    sisRule "s" "ynop" "ynop",
    sisRule "p" "rogno" "rogno",
    sisRule "p" "arenthe" "arenthe",
    sisRule "d" "iagno" "iagno",
    sisRule "b" "a" "a",
    sisRule "a" "naly" "naly",
    rule ["t", "i"] ["a"] "um",
    rule ["n"] ["ews"] "ews",
    rule ["ss"] [""] "",
    rule [""] ["s"] ""]

/-- Words that are their own plural. -/
def invariants : List String :=
  ["equipment", "fish", "information", "jeans", "money", "rice", "series", "sheep",
    "species"]

-- ======================================================== the inflections

/-- The word before a line feed at the end, and that line feed. -/
def splitLineFeed (cs : List Char) : List Char × List Char :=
  if cs.getLast? = some '\n' then (cs.dropLast, ['\n']) else (cs, [])

/-- The first rule that speaks of a word, applied. -/
def firstRule? (table : List Rule) (cs : List Char) : Option (List Char) :=
  table.findSome? fun r => r.apply? cs

/-- The plural of a word. Where no rule speaks of the word an s is put at
its end, and also after a line feed at the end. -/
def pluralize (s : String) : String :=
  if s = "" ∨ invariants.contains (Text.lower s) then s
  else
    let (word, feed) := splitLineFeed s.toList
    match firstRule? pluralTable word with
    | some cs => String.ofList (cs ++ feed)
    | none =>
        String.ofList (word ++ 's' :: (if feed.isEmpty then [] else feed ++ ['s']))

/-- Whether an invariant word ends the text, with no letter right before
it. -/
def endsInvariant (cs : List Char) : Bool :=
  invariants.any fun w =>
    endsIn (letters w) cs
      && !((cs.take (cs.length - w.length)).getLast?.any Text.isWordChar)

/-- The singular of a word; a word that no rule speaks of stays. -/
def singularize (s : String) : String :=
  let cs := s.toList
  if endsInvariant cs then s
  else
    let (word, feed) := splitLineFeed cs
    match firstRule? singularTableBefore word with
    | some out => String.ofList (out ++ feed)
    | none =>
        if fitsAll (letters "oxen") (cs.take 4) then
          String.ofList (cs.take 2 ++ cs.drop 4)
        else
          match firstRule? singularTableAfter word with
          | some out => String.ofList (out ++ feed)
          | none => s

end ModelSchema.Naming
