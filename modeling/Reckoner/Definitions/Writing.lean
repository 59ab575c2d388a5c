import Reckoner.Book
import Reckoner.Json.Text

/-!
# Writing a definitions file

The file is one JSON object, indented by two spaces a level: the variables, then the formulas, every
member on a line of its own. An empty list is written without a line break.
-/

namespace Reckoner.Definitions

/-- A member whose value is a text. -/
def member (key value : String) : String :=
  "      " ++ Json.Text.quote key ++ ": " ++ Json.Text.quote value

/-- An entry of a list. -/
def entry (members : List String) : String :=
  "    \x7b\n" ++ ",\n".intercalate members ++ "\n    \x7d"

/-- A list of entries under its key. -/
def entries (key : String) (es : List String) : String :=
  "  " ++ Json.Text.quote key ++ ": " ++
    (if es.isEmpty then "[]" else "[\n" ++ ",\n".intercalate es ++ "\n  ]")

/-- The word for a kind. -/
def kindWord : Kind → String
  | .constant => "constant"
  | .dynamic => "dynamic"

/-- The entry of a variable. -/
def variableEntry (v : Variable) : String :=
  entry [member "name" v.name.text, member "kind" (kindWord v.kind), member "expression" v.text]

/-- The entry of a formula. -/
def formulaEntry (f : Formula) : String :=
  entry [member "name" f.name.text, member "expression" f.expression]

/-- The text of a book as a definitions file. -/
def toText (b : Book) : String :=
  "\x7b\n" ++ entries "variables" (b.vars.map variableEntry) ++ ",\n" ++
    entries "formulas" (b.formulas.map formulaEntry) ++ "\n\x7d"

end Reckoner.Definitions
