import Reckoner.Token

/-!
# Faults and failures

A `Fault` is a cause: what is wrong with a text, with a list of tokens, with a set of variables or
with the context of a formula. A `Failure` is a fault together with the variable whose definition it
was met in, if it was met in one; a failure names at most one variable.

All wording is in `Fault.message` and `Failure.message`.
-/

namespace Reckoner

/-- How a list of tokens, or a run of digits and points, misses the form of an expression. -/
inductive Malformation
  /-- A run of digits and points that is no literal. -/
  | invalidNumber (run : String)
  /-- An operator with fewer than two operands before it in postfix order. -/
  | missingOperand (o : Operator)
  /-- No operand at all. -/
  | empty
  /-- More operands than the operators take. -/
  | leftOver (count : Nat)
  /-- An open parenthesis in a list that is to be in postfix order. -/
  | opening
  /-- A closing parenthesis in a list that is to be in postfix order. -/
  | closing
  /-- A symbol for which there is no value. -/
  | unexpectedSymbol (symbol : String)
  /-- A token where a symbol is to be replaced. -/
  | unexpectedToken (t : Token)
  /-- A walk without a variable under way. -/
  | nothingLeft
  deriving DecidableEq, Repr

/-- Why an expression has no value. -/
inductive Fault
  | invalidCharacter (c : Char) (position : Nat)
  | mismatchedParentheses
  | malformed (how : Malformation)
  | divisionByZero
  | nonFiniteResult
  | undefinedVariable (name : String)
  | nonNumericConstant (name : String)
  | circularDependency (name : String)
  | missingContextualValue (name : String)
  | duplicateVariable (name : String)
  deriving DecidableEq, Repr

/-- The wording of a malformation. -/
def Malformation.message : Malformation → String
  | invalidNumber run => "invalid number '" ++ run ++ "'"
  | missingOperand o => "operator '" ++ String.singleton o.symbol ++ "' is missing an operand"
  | empty => "empty expression"
  | leftOver count => toString count ++ " values left without an operator"
  | opening => "unexpected '(' in RPN"
  | closing => "unexpected ')' in RPN"
  | unexpectedSymbol symbol => "unexpected symbol '" ++ symbol ++ "'"
  | unexpectedToken t => "unexpected token '" ++ t.text ++ "'"
  | nothingLeft => "nothing left to resolve"

/-- The wording of a fault. -/
def Fault.message : Fault → String
  | invalidCharacter c position =>
    "Invalid character '" ++ String.singleton c ++ "' at position " ++ toString position
  | mismatchedParentheses => "Mismatched parentheses"
  | malformed how => "Malformed expression: " ++ how.message
  | divisionByZero => "Division by zero"
  | nonFiniteResult => "Result is not a finite number"
  | undefinedVariable name => "Variable " ++ name ++ " is not defined"
  | nonNumericConstant name => "Constant " ++ name ++ " has a non-numeric value"
  | circularDependency name => "Circular dependency detected at " ++ name
  | missingContextualValue name => "Missing contextual value: " ++ name
  | duplicateVariable name => "Variable " ++ name ++ " is defined more than once"

/-- A fault, and the variable whose definition it lies in, if it lies in one. The fault has no variable
of its own, so the type settles that blame is laid once at most. -/
inductive Failure
  | plain (fault : Fault)
  | within (owner : String) (fault : Fault)
  deriving DecidableEq, Repr

namespace Failure

/-- The fault itself. -/
def fault : Failure → Fault
  | plain fault => fault
  | within _ fault => fault

/-- The variable whose definition the fault lies in. -/
def owner? : Failure → Option String
  | plain _ => none
  | within owner _ => some owner

/-- The same failure, laid to `owner` unless it is laid to a variable already. A failure never holds
another one, since there is no way to write that down; that the first variable is kept is
`blame_blame`. -/
def blame (owner : String) : Failure → Failure
  | plain fault => within owner fault
  | within inner fault => within inner fault

/-- The wording of a failure. -/
def message : Failure → String
  | plain fault => fault.message
  | within owner fault => "In variable " ++ owner ++ ": " ++ fault.message

@[simp] theorem fault_blame (owner : String) (f : Failure) : (f.blame owner).fault = f.fault := by
  cases f <;> rfl

/-- Once blame is laid, the failure lies in a variable. -/
theorem blame_eq (owner : String) (f : Failure) :
    ∃ inner fault, f.blame owner = within inner fault := by
  cases f with
  | plain fault => exact ⟨owner, fault, rfl⟩
  | within inner fault => exact ⟨inner, fault, rfl⟩

/-- Blame sticks to the first variable it is laid to. -/
@[simp] theorem blame_blame (first second : String) (f : Failure) :
    (f.blame first).blame second = f.blame first := by
  cases f <;> rfl

end Failure

end Reckoner
