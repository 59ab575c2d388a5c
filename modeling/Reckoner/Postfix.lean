import Reckoner.Lexeme.Reading

/-!
# Postfix order

An expression is evaluated in two steps. `Postfix.ofTokens` moves each operator behind its operands
and drops the parentheses: operators wait on a stack until one comes that binds less tightly, or the
parenthesis closes. `Postfix.value` then needs only a stack of numbers.

The first step looks at nothing but parentheses. Whether the tokens form an expression shows in the
second, when an operator finds no operands or operands are left over.
-/

namespace Reckoner.Postfix

/-! ## 1. Into postfix order -/

/-- What waits on the stack: an operator without its right operand, or an open parenthesis. -/
inductive Waiting
  | operator (o : Operator)
  | opening
  deriving DecidableEq, Repr

/-- Moves the operators that bind at least as tightly as `o` from the stack to the output (the last
one first), up to the innermost open parenthesis. -/
def release (o : Operator) (out : List Token) : List Waiting → List Token × List Waiting
  | .operator top :: stack =>
    if top.binding < o.binding then (out, .operator top :: stack)
    else release o (.operator top :: out) stack
  | stack => (out, stack)

/-- Moves all operators above the innermost open parenthesis to the output, and drops the
parenthesis. -/
def close (out : List Token) : List Waiting → Except Fault (List Token × List Waiting)
  | .operator top :: stack => close (.operator top :: out) stack
  | .opening :: stack => .ok (out, stack)
  | [] => .error .mismatchedParentheses

/-- Moves everything that still waits to the output; an open parenthesis is a fault. -/
def finish (out : List Token) : List Waiting → Except Fault (List Token)
  | .operator top :: stack => finish (.operator top :: out) stack
  | .opening :: _ => .error .mismatchedParentheses
  | [] => .ok out.reverse

/-- The postfix order of tokens that come after the output `out` (the last one first), while `stack`
waits. -/
def arrange (out : List Token) (stack : List Waiting) : List Token → Except Fault (List Token)
  | [] => finish out stack
  | .number x :: ts => arrange (.number x :: out) stack ts
  | .operator o :: ts =>
    let (out, stack) := release o out stack
    arrange out (.operator o :: stack) ts
  | .opening :: ts => arrange out (.opening :: stack) ts
  | .closing :: ts =>
    match close out stack with
    | .ok (out, stack) => arrange out stack ts
    | .error fault => .error fault

/-- The tokens of an expression in postfix order. -/
def ofTokens (ts : List Token) : Except Fault (List Token) :=
  arrange [] [] ts

/-! ## 2. The value of a list in postfix order -/

/-- An operator on two numbers. Dividing by zero, of either sign, is a fault; an infinite result or
one that is no number is not. -/
def apply (o : Operator) (left right : Binary64) : Except Fault Binary64 :=
  match o with
  | .add => .ok (left + right)
  | .subtract => .ok (left - right)
  | .multiply => .ok (left * right)
  | .divide => if right.isZero then .error .divisionByZero else .ok (left / right)

/-- What a token does to the stack of numbers, whose top is first. -/
def step (stack : List Binary64) : Token → Except Fault (List Binary64)
  | .number x => .ok (x :: stack)
  | .operator o =>
    match stack with
    | right :: left :: stack => (apply o left right).map (· :: stack)
    | _ => .error (.malformed (.missingOperand o))
  | .opening => .error (.malformed .opening)
  | .closing => .error (.malformed .closing)

/-- What the stack holds at the end: one finite number, or a fault. -/
def conclude : List Binary64 → Except Fault Binary64
  | [] => .error (.malformed .empty)
  | [x] => if x.isFinite then .ok x else .error .nonFiniteResult
  | stack => .error (.malformed (.leftOver stack.length))

/-- The value of a list in postfix order. -/
def value (ts : List Token) : Except Fault Binary64 := do
  conclude (← ts.foldlM step [])

end Reckoner.Postfix

namespace Reckoner

/-! ## 3. The value of an expression -/

/-- The value of an expression. -/
def Token.evaluate (ts : List Token) : Except Fault Binary64 := do
  Postfix.value (← Postfix.ofTokens ts)

/-- The tokens of a text without symbols. -/
def Token.ofText (s : String) : Except Fault (List Token) := do
  Lexeme.bind (fun s => .error (.malformed (.unexpectedSymbol s.text)))
    (← Lexeme.ofText .numeric s)

/-- The value of a text without symbols. -/
def evaluateText (s : String) : Except Fault Binary64 := do
  Token.evaluate (← Token.ofText s)

end Reckoner
