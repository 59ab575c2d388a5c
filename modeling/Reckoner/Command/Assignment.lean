import Reckoner.Number
import Reckoner.Text.Blank

/-!
# Assignments

On the command line a placeholder gets its value by an assignment `name=value`. The name ends at the
first equals sign, and there may be white space around either side. The value may be any number that
`Number.ofValue?` reads, as long as it is finite.
-/

namespace Reckoner.Command

/-- Why an argument gives no value to a placeholder. -/
inductive AssignmentError
  | noSign (s : String)
  | noName (s : String)
  | notNumeric (name : String)
  | notFinite (name : String)
  deriving DecidableEq, Repr

/-- The wording of such an error. -/
def AssignmentError.message : AssignmentError → String
  | noSign s => "expected NAME=VALUE, got '" ++ s ++ "'"
  | noName s => "missing name in '" ++ s ++ "'"
  | notNumeric name => name ++ " must be numeric"
  | notFinite name => name ++ " must be a finite number"

/-- The name and the value of an assignment `name=value`; there may be white space around either. -/
def readAssignment (s : String) : Except AssignmentError (String × Binary64) :=
  let cs := s.toList
  match cs.dropWhile (· != '=') with
  | [] => .error (.noSign s)
  | _ :: value =>
    let name := String.ofList (Text.trimmed (cs.takeWhile (· != '=')))
    if name.isEmpty then
      .error (.noName s)
    else
      match Number.ofValue? (Text.trimmed value) with
      | none => .error (.notNumeric name)
      | some x => if x.isFinite then .ok (name, x) else .error (.notFinite name)

end Reckoner.Command
