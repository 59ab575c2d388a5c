import Reckoner.Placeholder
import Reckoner.Fault

/-!
# Lexemes and dialects

A lexeme is a token, or a symbol that still needs a value: a reference to a variable, or a
placeholder. A dialect says which symbols a text may hold.

`bind` replaces symbols by numbers. A value is put in as a token and never as text, so a negative
value needs no parentheses. `bindWith` does so when values are given for lexemes of any kind.
-/

namespace Reckoner

/-! ## 1. Symbols and lexemes -/

/-- What stands for a number in an expression: the name of a variable or of a placeholder. -/
inductive Symbol
  | reference (name : String)
  | placeholder (name : String)
  deriving DecidableEq, Repr

namespace Symbol

/-- The text of a symbol. -/
def text : Symbol → String
  | reference name => name
  | placeholder name => Placeholder.text name

/-- The fault of a symbol that has no value. -/
def unbound : Symbol → Fault
  | reference name => .undefinedVariable name
  | placeholder name => .missingContextualValue name

end Symbol

/-- A unit of an expression. -/
inductive Lexeme
  | token (t : Token)
  | symbol (s : Symbol)
  deriving DecidableEq, Repr

namespace Lexeme

/-- The text of a lexeme. -/
def text : Lexeme → String
  | token t => t.text
  | symbol s => s.text

/-- The variable that a lexeme refers to. -/
def reference? : Lexeme → Option String
  | symbol (.reference name) => some name
  | _ => none

/-- The variables that an expression refers to, from left to right, with repetitions. -/
def references (ls : List Lexeme) : List String :=
  ls.filterMap reference?

/-- The token of a lexeme, when `value` gives the value of each symbol. -/
def toToken {m : Type → Type} [Monad m] (value : Symbol → m Binary64) : Lexeme → m Token
  | token t => pure t
  | symbol s => Token.number <$> value s

/-- The tokens of an expression, when `value` gives the value of each symbol. Symbols are visited from
the left, and the first one without a value is the fault. -/
def bind {m : Type → Type} [Monad m] (value : Symbol → m Binary64) (ls : List Lexeme) :
    m (List Token) :=
  ls.mapM (toToken value)

/-- The tokens of an expression, when `value` could be asked for the value of any lexeme: a token stays
what it is, and only what is left is asked for. -/
def bindWith {m : Type → Type} [Monad m] (value : Lexeme → m Binary64) (ls : List Lexeme) :
    m (List Token) :=
  ls.mapM fun
    | token t => pure t
    | other => Token.number <$> value other

/-- **Only symbols are asked for**, whatever `value` says of tokens. -/
theorem bindWith_eq {m : Type → Type} [Monad m] (value : Lexeme → m Binary64) (ls : List Lexeme) :
    bindWith value ls = bind (fun s => value (symbol s)) ls := by
  refine congrArg (ls.mapM ·) (funext fun l => ?_)
  cases l with
  | token t => rfl
  | symbol s => rfl

end Lexeme

/-! ## 2. Dialects -/

/-- Which symbols a text may hold. -/
structure Dialect where
  references : Bool
  placeholders : Bool
  deriving DecidableEq, Repr

namespace Dialect

/-- Numbers, operators and parentheses only. -/
def numeric : Dialect := ⟨false, false⟩

/-- Expressions of variables: references, no placeholders. -/
def dynamic : Dialect := ⟨true, false⟩

/-- Expressions of formulas: references and placeholders. -/
def formula : Dialect := ⟨true, true⟩

end Dialect

end Reckoner
