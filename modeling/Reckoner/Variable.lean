import Reckoner.Name
import Reckoner.Number

/-!
# Variables

A variable is a constant, whose text is a number, or dynamic, whose text is an expression over other
variables.
-/

namespace Reckoner

/-- How a variable gets its value. -/
inductive Kind
  | constant
  | dynamic
  deriving DecidableEq, Repr

/-- A named variable. -/
structure Variable where
  name : Name
  kind : Kind
  text : String
  deriving DecidableEq

namespace Variable

/-- The variable of a given kind; the name is normalized, the text is kept as it is. -/
def make (kind : Kind) (name text : String) : Except Rejection Variable := do
  return { name := ← Name.ofText name, kind, text }

/-- What a variable lacks to be usable, if it lacks something. -/
def defect? (v : Variable) : Option Defect :=
  match v.kind with
  | .constant => if (Number.ofConstant? v.text).isNone then some .notNumeric else none
  | .dynamic => if (Text.trimmed v.text.toList).isEmpty then some .noExpression else none

end Variable

end Reckoner
