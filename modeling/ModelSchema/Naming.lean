/-
The names of a schema, derived from the names of models and attributes.
A name is cut into its runs of ASCII letters and digits, whatever stands
between them; the runs are joined again with a capital at the start of
each, or of each but the first. Words without a plural of their own are
told by the last word of a name, before any rule of inflection.
-/
import ModelSchema.Fault
import ModelSchema.Naming.Inflection

namespace ModelSchema.Naming

-- ======================================================== camel case

/-- Whether a character is an ASCII letter or digit. -/
def isNameChar (c : Char) : Bool := c.isAlphanum

/-- The runs of ASCII letters and digits, given the run that is open, in
reverse. -/
def runsFrom (opened : List Char) : List Char → List (List Char)
  | [] => if opened.isEmpty then [] else [opened.reverse]
  | c :: rest =>
      if isNameChar c then runsFrom (c :: opened) rest
      else if opened.isEmpty then runsFrom [] rest
      else opened.reverse :: runsFrom [] rest

/-- The runs of ASCII letters and digits of a name. -/
def runs (cs : List Char) : List (List Char) := runsFrom [] cs

/-- A run with a capital at its start. -/
def capitalize : List Char → List Char
  | [] => []
  | c :: rest => c.toUpper :: rest

/-- A run with a small letter at its start. -/
def uncapitalize : List Char → List Char
  | [] => []
  | c :: rest => c.toLower :: rest

/-- The runs of a name joined, all but the first with a capital. -/
def camelChars (cs : List Char) : List Char :=
  match runs cs with
  | [] => []
  | first :: rest => uncapitalize first ++ rest.flatMap capitalize

/-- A name in camel case: `hero_section` and `hero-section` become
`heroSection`. -/
def camelCase (s : String) : String := String.ofList (camelChars s.toList)

/-- A text with its first letter in upper case. -/
def upperFirst (s : String) : String :=
  match s.toList with
  | [] => s
  | c :: rest => String.ofList (Text.upperChar c ++ rest)

/-- A text with its first letter in lower case. -/
def lowerFirst (s : String) : String :=
  match s.toList with
  | [] => s
  | c :: rest => String.ofList (Text.lowerFrom [] [c] ++ rest)

/-- A name in camel case with a capital at the start. -/
def upperCamel (s : String) : String := upperFirst (camelCase s)

-- ==================================================== words of a name

/-- The words of a name, given the capitals and the small letters of the
word that is open, in reverse. A row of capitals is a word, less its last
letter if a small letter follows; a word of small letters and digits may
start with one capital. -/
def wordsFrom (capitals smalls : List Char) : List Char → List (List Char)
  | [] => (if smalls.isEmpty then capitals else smalls).reverse :: []
  | c :: rest =>
      if c.isUpper then
        if smalls.isEmpty then wordsFrom (c :: capitals) [] rest
        else smalls.reverse :: wordsFrom [c] [] rest
      else if c.isLower then
        match smalls, capitals with
        | [], [] => wordsFrom [] [c] rest
        | [], last :: before => before.reverse :: wordsFrom [] [c, last] rest
        | _, _ => wordsFrom [] (c :: smalls) rest
      else if c.isDigit then
        if smalls.isEmpty then capitals.reverse :: wordsFrom [] [c] rest
        else wordsFrom [] (c :: smalls) rest
      else
        (if smalls.isEmpty then capitals else smalls).reverse :: wordsFrom [] [] rest

/-- The words of a name. -/
def words (s : String) : List (List Char) :=
  (wordsFrom [] [] s.toList).filter fun w => !w.isEmpty

/-- The last word of a name, in lower case. -/
def lastWord (s : String) : String :=
  match (words s).getLast? with
  | some w => String.ofList (w.map Char.toLower)
  | none => ""

/-- Words whose plural and singular are the same, or that the rules of
inflection would take for something else. -/
def uncountables : List String :=
  ["adulthood", "advice", "agenda", "aid", "aircraft", "alcohol", "ammo",
    "analytics", "anime", "athletics", "audio", "bison", "blood", "bream",
    "buffalo", "butter", "carp", "cash", "chassis", "chess", "clothing",
    "cod", "commerce", "cooperation", "corps", "debris", "diabetes",
    "digestion", "elk", "energy", "equipment", "excretion", "expertise",
    "firmware", "fish", "flounder", "fun", "gallows", "garbage", "graffiti",
    "hardware", "headquarters", "health", "herpes", "highjinks", "homework",
    "housework", "information", "jeans", "justice", "kudos", "labour",
    "literature", "machinery", "mackerel", "mail", "manga", "media", "mews",
    "money", "moose", "mud", "music", "news", "personnel", "pike",
    "plankton", "pliers", "police", "pollution", "premises", "rain",
    "research", "rice", "salmon", "scissors", "series", "sewage",
    "shambles", "sheep", "shrimp", "software", "species", "staff", "swine",
    "tennis", "traffic", "transportation", "trout", "tuna", "wealth",
    "welfare", "whiting", "wildebeest", "wildlife"]

/-- Whether the last word of a name has no plural of its own. -/
def isUncountable (s : String) : Bool := uncountables.contains (lastWord s)

/-- The singular of a name, in camel case. -/
def toSingular (s : String) : String :=
  if isUncountable s then camelCase s else camelCase (singularize s)

/-- The plural of a name, in camel case. -/
def toPlural (s : String) : String :=
  if isUncountable s then camelCase s else camelCase (pluralize s)

/-- The name of the input type of a name. -/
def inputName (s : String) : String := upperFirst (toSingular s) ++ "Input"

-- ================================================== names as configured

/-- A name in camel case; what is not given stays as it is. -/
def camelCaseOf (name : Value) : Value :=
  if name.isGiven then .str (camelCase name.text) else name

/-- A name with its first letter changed; only a text has one. -/
def changeFirst (change : String → String) (name : Value) : Except Fault Value :=
  match name with
  | .str s => .ok (.str (change s))
  | _ => if name.isGiven then .error .wrongKind else .ok name

/-- The GraphQL type name that a model name stands for. -/
def globalIdFor (name : Value) : Except Fault Value :=
  changeFirst upperFirst (camelCaseOf name)

/-- The singular of a configured name: it has to be a text, unless its
last word has no plural. -/
def singularOf (name : Value) : Except Fault String :=
  match name with
  | .str s => .ok (toSingular s)
  | _ => if isUncountable name.text then .ok (camelCase name.text) else .error .wrongKind

/-- The plural of a configured name; what is not given stays. -/
def pluralOf (name : Value) : Except Fault Value :=
  match name with
  | .str s => .ok (.str (toPlural s))
  | _ =>
      if isUncountable name.text then .ok (.str (camelCase name.text))
      else if name.isGiven then .error .noSuchMember
      else .ok name

/-- The name of the input type of a configured name. -/
def inputNameOf (name : Value) : Except Fault String :=
  return upperFirst (← singularOf name) ++ "Input"

/-- Upper case of a configured name, which has to be a text. -/
def upperOf (name : Value) : Except Fault String :=
  match name with
  | .str s => .ok (Text.upper s)
  | _ => .error .noSuchMember

end ModelSchema.Naming
