/-!
# Rejections

Why a definition, or a change of a definition, is not accepted.
-/

namespace Reckoner

/-- What a definition lacks. -/
inductive Defect
  /-- The text of a constant is no number. -/
  | notNumeric
  /-- A dynamic variable has no expression. -/
  | noExpression
  /-- A formula has no expression. -/
  | noFormula
  deriving DecidableEq, Repr

/-- Why a definition is not accepted. -/
inductive Rejection
  /-- A text that is no name, as it was given. -/
  | invalidName (text : String)
  | duplicateName (name : String)
  | invalidDefinition (name : String) (defect : Defect)
  | notFound (name : String)
  deriving DecidableEq, Repr

/-- The wording of a defect. -/
def Defect.message : Defect → String
  | notNumeric => "constant variables must have a numeric value"
  | noExpression => "dynamic variables must have an expression"
  | noFormula => "formula expression is required"

/-- The wording of a rejection. -/
def Rejection.message : Rejection → String
  | invalidName text =>
    "Invalid name '" ++ text ++ "': use uppercase letters, digits and underscores only"
  | duplicateName name => "Name already exists: " ++ name
  | invalidDefinition name defect =>
    "Invalid definition for " ++ name ++ ": " ++ defect.message
  | notFound name => "Not found: " ++ name

end Reckoner
