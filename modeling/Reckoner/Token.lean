import Reckoner.Number

/-!
# Operators and tokens

A token is a number, one of the four operators or a parenthesis. A list of tokens is an expression in
the usual order of writing, or in postfix order; nothing in the list says which.
-/

namespace Reckoner

/-- The four operators. -/
inductive Operator
  | add
  | subtract
  | multiply
  | divide
  deriving DecidableEq, Repr

namespace Operator

/-- The character an operator is written with. -/
def symbol : Operator → Char
  | add => '+'
  | subtract => '-'
  | multiply => '*'
  | divide => '/'

/-- How tightly an operator binds its operands. All four associate to the left. -/
def binding : Operator → Nat
  | add | subtract => 1
  | multiply | divide => 2

end Operator

/-- A unit of an expression whose symbols all have values. -/
inductive Token
  | number (x : Binary64)
  | operator (o : Operator)
  | opening
  | closing
  deriving DecidableEq, Repr

namespace Token

/-- The text of a token. -/
def text : Token → String
  | number x => Number.text x
  | operator o => String.singleton o.symbol
  | opening => "("
  | closing => ")"

/-- The text of an expression: its tokens with one space between neighbours. -/
def render (ts : List Token) : String :=
  " ".intercalate (ts.map text)

/-- The token written with a single character. -/
def ofChar? : Char → Option Token
  | '+' => some (operator .add)
  | '-' => some (operator .subtract)
  | '*' => some (operator .multiply)
  | '/' => some (operator .divide)
  | '(' => some opening
  | ')' => some closing
  | _ => none

@[simp] theorem ofChar?_symbol (o : Operator) : ofChar? o.symbol = some (operator o) := by
  cases o <;> rfl

end Token

end Reckoner
