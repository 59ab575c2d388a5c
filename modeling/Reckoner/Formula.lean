import Reckoner.Resolution

/-!
# Formulas

A formula is an expression over variables and placeholders. Its value depends on the variables and on
a context that gives the values of the placeholders.

The order of the steps decides which fault is met: first every placeholder has to have a value, then
all variables are resolved, also those the formula does not refer to, then the text is read, its
symbols are bound from left to right, and the numeric expression is evaluated.
-/

namespace Reckoner

/-- A named formula. -/
structure Formula where
  name : Name
  expression : String
  deriving DecidableEq

/-- The formula with a given name, which is normalized; the expression is kept as it is. -/
def Formula.make (name expression : String) : Except Rejection Formula := do
  return { name := ← Name.ofText name, expression }

/-- The values of placeholders, by name. -/
abbrev Context := String → Option Binary64

/-- What the evaluation of a formula gives: its value, the numeric expression it was found from, and
the placeholders of the formula. -/
structure Evaluation where
  value : Binary64
  tokens : List Token
  placeholders : List String

/-- The numeric expression that was evaluated. -/
def Evaluation.numericExpression (e : Evaluation) : String :=
  Token.render e.tokens

namespace Formula

/-- The value of a symbol, given the values of variables and placeholders. -/
def symbolValue (values : String → Option Binary64) (context : Context) (s : Symbol) :
    Except Fault Binary64 :=
  let found :=
    match s with
    | .reference name => values name
    | .placeholder name => context name
  match found with
  | some x => .ok x
  | none => .error s.unbound

/-- The value that replaces a lexeme; a token is not to be replaced. -/
def replacement (values : String → Option Binary64) (context : Context) :
    Lexeme → Except Fault Binary64
  | .token t => .error (.malformed (.unexpectedToken t))
  | .symbol s => symbolValue values context s

/-- Evaluates an expression whose placeholders all have values, given the values of the variables. -/
def evaluateWith (values : String → Option Binary64) (context : Context) (expression : String) :
    Except Fault (List Token × Binary64) := do
  let lexemes ← Lexeme.ofText .formula expression
  let tokens ← Lexeme.bindWith (replacement values context) lexemes
  return (tokens, ← Token.evaluate tokens)

/-- **No token is replaced**: what is evaluated is the expression with its symbols bound. -/
theorem evaluateWith_bind (values : String → Option Binary64) (context : Context)
    (expression : String) :
    evaluateWith values context expression = (do
      let lexemes ← Lexeme.ofText .formula expression
      let tokens ← Lexeme.bind (symbolValue values context) lexemes
      return (tokens, ← Token.evaluate tokens)) := by
  unfold evaluateWith
  simp only [Lexeme.bindWith_eq, replacement]

/-- Evaluates the expression of a formula. -/
def evaluate (vars : List Variable) (context : Context) (expression : String) :
    Except Failure Evaluation :=
  let placeholders := Placeholder.names expression
  match placeholders.find? fun name => (context name).isNone with
  | some missing => .error (.plain (.missingContextualValue missing))
  | none =>
    match resolve vars with
    | .error failure => .error failure
    | .ok values =>
      let table := Std.HashMap.ofList values
      match evaluateWith (table[·]?) context expression with
      | .error fault => .error (.plain fault)
      | .ok (tokens, value) => .ok { value, tokens, placeholders }

end Formula

end Reckoner
