import Reckoner.Json.Numeral
import Reckoner.Rejection
import Reckoner.Text.Quoted

/-!
# Errors of definitions files

A definitions file may not exist, may be no JSON, or may be JSON that defines no book. What is met
while the text is read has a place in it, which the program names behind the wording; places are left
out here.
-/

namespace Reckoner.Definitions

/-- What stands where something else belongs. -/
inductive Found
  | null
  | bool (b : Bool)
  | number (n : Json.Quantity)
  | text (s : String)
  | list
  | object
  deriving DecidableEq, Repr

/-- What belongs at a place. -/
inductive Wanted
  | book
  | entries
  | someVariable
  | someFormula
  | text
  | textOrObject
  | nothing
  deriving DecidableEq, Repr

/-- Why a JSON value defines no book. -/
inductive Misfit
  | unexpected (found : Found) (wanted : Wanted)
  /-- A formula given as a list of fewer than two texts. -/
  | tooShort (count : Nat)
  | missingField (name : String)
  | duplicateField (name : String)
  | unknownKind (text : String)
  /-- A kind given as an object that has not exactly one member. -/
  | notSingle
  | rejected (rejection : Rejection)
  deriving DecidableEq, Repr

/-- Why a definitions file is not opened. -/
inductive Error
  | missingFile
  | illFormed (problem : Json.Problem)
  | unfit (misfit : Misfit)
  deriving DecidableEq, Repr

/-! ## Wording -/

/-- The wording of what stands at a place. -/
def Found.description : Found → String
  | null => "null"
  | bool b => "boolean `" ++ (if b then "true" else "false") ++ "`"
  | number n => n.description
  | text s => "string " ++ Text.quoted s
  | list => "sequence"
  | object => "map"

/-- The wording of what belongs at a place. -/
def Wanted.description : Wanted → String
  | book => "struct CatalogFile"
  | entries => "a sequence"
  | someVariable => "struct Variable"
  | someFormula => "struct Formula"
  | text => "a string"
  | textOrObject => "string or map"
  | nothing => "unit"

/-- The wording of a misfit. -/
def Misfit.message : Misfit → String
  | unexpected found wanted =>
    "invalid type: " ++ found.description ++ ", expected " ++ wanted.description
  | tooShort count =>
    "invalid length " ++ toString count ++ ", expected struct Formula with 2 elements"
  | missingField name => "missing field `" ++ name ++ "`"
  | duplicateField name => "duplicate field `" ++ name ++ "`"
  | unknownKind text => "unknown variant `" ++ text ++ "`, expected `constant` or `dynamic`"
  | notSingle => "invalid value: map, expected map with a single key"
  | rejected rejection => rejection.message

/-- The wording of the cause of an error, without the place ` at line L column C` that stands behind it
where the cause is met while the text is read. -/
def Error.cause : Error → String
  | missingFile => "No such file or directory (os error 2)"
  | illFormed problem => problem.message
  | unfit misfit => misfit.message

/-- The wording of an error, without the place at its end. -/
def Error.message (e : Error) : String :=
  match e with
  | missingFile => "I/O error: " ++ e.cause
  | illFormed _ | unfit _ => "Invalid definitions file: " ++ e.cause

end Reckoner.Definitions
