/-
Blocks of the schema definition language: descriptions, and definitions
with their bodies between braces.
-/
import ModelSchema.Text.Lines

namespace ModelSchema.Sdl

/-- Three quotes in a row are escaped by a backslash. -/
def escapeQuotes : List Char → List Char
  | '"' :: '"' :: '"' :: rest => '\\' :: '"' :: '"' :: '"' :: escapeQuotes rest
  | c :: rest => c :: escapeQuotes rest
  | [] => []

/-- A description, on lines of its own between triple quotes. -/
def descriptionBlock (text : String) : String :=
  "\"\"\"\n" ++ String.ofList (escapeQuotes text.toList) ++ "\n\"\"\"\n"

/-- A line of a body; an empty line stays empty. -/
def indent (line : String) : String := if line = "" then "" else "  " ++ line

/-- A definition with its body between braces, each line indented. -/
def renderBlock (keyword name body : String) (description : String) : String :=
  description ++ keyword ++ " " ++ name ++ " \x7b\n"
    ++ String.intercalate "\n" ((Text.lines body).map indent) ++ "\n\x7d"

end ModelSchema.Sdl
