import Reckoner.Formula

/-!
# The book of variables and formulas

A `Book` keeps variables and formulas in the order in which they were added; the two have names of
their own kind each, so a variable and a formula may share one. What is added is checked first, the
way a form checks its fields: the name must be free, a constant has to be a number, and an expression
must not be empty. Texts are stored without the white space around them. Whether an expression makes
sense shows only when it is evaluated.

Entries are looked up by any spelling of their names.

What may be refused is an `Edit`: steps that read and write the book, each of which may be the last one.
The book behind an edit is there whether it was refused or not, so that a refusal leaves no trace is
something to be proved of the steps and not a matter of their type.
-/

namespace Reckoner

/-- Variables and formulas, each in the order of their addition. -/
structure Book where
  vars : List Variable
  formulas : List Formula
  deriving DecidableEq

namespace Book

/-- The book without entries. -/
def empty : Book := ⟨[], []⟩

/-- Whether a book has no entries. -/
def isEmpty (b : Book) : Bool :=
  b.vars.isEmpty && b.formulas.isEmpty

/-! ## 1. Looking up -/

/-- Whether a name in its normal form belongs to an entry. -/
def isNamed (key : String) (name : Name) : Bool :=
  name.text == key

/-- The variable with a given name. -/
def findVariable (b : Book) (name : String) : Option Variable :=
  let key := Name.normalize name
  b.vars.find? fun v => isNamed key v.name

/-- The formula with a given name. -/
def findFormula (b : Book) (name : String) : Option Formula :=
  let key := Name.normalize name
  b.formulas.find? fun f => isNamed key f.name

/-! ## 2. Changes that may be refused -/

/-- A change of a book that may be refused. The book is there in either case, as the steps up to the
refusal left it. -/
abbrev Edit (ε : Type) := ExceptT ε (StateM Book)

namespace Edit

/-- What a change makes of a book: whether it was refused, and the book as it is then. -/
def apply {ε α : Type} (e : Edit ε α) (b : Book) : Except ε α × Book :=
  (e.run.run b).run

/-- The book behind a change, if it was not refused. -/
def outcome {ε : Type} (e : Edit ε Unit) (b : Book) : Except ε Book :=
  match e.apply b with
  | (.ok (), b) => .ok b
  | (.error refusal, _) => .error refusal

section

variable {ε α β : Type} (b : Book)

@[simp] theorem apply_pure (a : α) : apply (pure a : Edit ε α) b = (.ok a, b) := rfl

@[simp] theorem apply_throw (refusal : ε) : apply (throw refusal : Edit ε α) b = (.error refusal, b) :=
  rfl

@[simp] theorem apply_get : apply (get : Edit ε Book) b = (.ok b, b) := rfl

@[simp] theorem apply_modify (g : Book → Book) : apply (modify g : Edit ε Unit) b = (.ok (), g b) :=
  rfl

/-- What follows a change is done to the book behind it, unless it was refused. -/
@[simp] theorem apply_bind (e : Edit ε α) (next : α → Edit ε β) : apply (e >>= next) b =
    match e.apply b with
    | (.ok a, b') => (next a).apply b'
    | (.error refusal, b') => (.error refusal, b') := by
  have opened : apply (e >>= next) b =
    match e.apply b with
    | (result, b') => apply (ExceptT.mk (ExceptT.bindCont next result)) b' := rfl
  rw [opened]
  rcases e.apply b with ⟨refusal | a, b'⟩ <;> rfl

end

end Edit

/-! ## 3. Variables -/

/-- Refuses a variable that lacks something. -/
def Edit.check (v : Variable) : Edit Rejection Unit :=
  match v.defect? with
  | some defect => throw (.invalidDefinition v.name.text defect)
  | none => pure ()

/-- Adds a variable behind the others. -/
def Edit.addVariable (v : Variable) : Edit Rejection Unit := do
  if ((← get).findVariable v.name.text).isSome then
    throw (.duplicateName v.name.text)
  check v
  modify fun b => { b with vars := b.vars ++ [{ v with text := Text.trim v.text }] }

/-- The book with a variable added. -/
def addVariable (b : Book) (v : Variable) : Except Rejection Book :=
  (Edit.addVariable v).outcome b

/-- Replaces the first entry that belongs to a key. -/
def replaceFirst (key : String) (entry : Variable) : List Variable → List Variable
  | [] => []
  | v :: vs => if isNamed key v.name then entry :: vs else v :: replaceFirst key entry vs

/-- Gives a variable another text; its kind and its place stay. -/
def Edit.updateVariable (name text : String) : Edit Rejection Unit := do
  let key := Name.normalize name
  match (← get).findVariable name with
  | none => throw (.notFound key)
  | some v =>
    let v := { v with text := Text.trim text }
    check v
    modify fun b => { b with vars := replaceFirst key v b.vars }

/-- The book with a variable updated. -/
def updateVariable (b : Book) (name text : String) : Except Rejection Book :=
  (Edit.updateVariable name text).outcome b

/-- Removes a variable; the variable is returned if there was one. -/
def removeVariable (b : Book) (name : String) : Option Variable × Book :=
  let key := Name.normalize name
  (b.findVariable name, { b with vars := b.vars.eraseP fun v => isNamed key v.name })

/-! ## 4. Formulas -/

/-- Adds a formula behind the others. -/
def Edit.addFormula (f : Formula) : Edit Rejection Unit := do
  if ((← get).findFormula f.name.text).isSome then
    throw (.duplicateName f.name.text)
  if (Text.trimmed f.expression.toList).isEmpty then
    throw (.invalidDefinition f.name.text .noFormula)
  modify fun b =>
    { b with formulas := b.formulas ++ [{ f with expression := Text.trim f.expression }] }

/-- The book with a formula added. -/
def addFormula (b : Book) (f : Formula) : Except Rejection Book :=
  (Edit.addFormula f).outcome b

/-- Removes a formula; the formula is returned if there was one. -/
def removeFormula (b : Book) (name : String) : Option Formula × Book :=
  let key := Name.normalize name
  (b.findFormula name, { b with formulas := b.formulas.eraseP fun f => isNamed key f.name })

/-! ## 5. Evaluation -/

/-- Why a request to a book fails. -/
inductive Refusal
  | rejected (rejection : Rejection)
  | failed (failure : Failure)
  | unknownFormula (name : String)
  deriving DecidableEq, Repr

/-- The wording of a refusal. -/
def Refusal.message : Refusal → String
  | rejected rejection => rejection.message
  | failed failure => failure.message
  | unknownFormula name => "Unknown formula: " ++ name

/-- The names of all variables with their values. -/
def resolve (b : Book) : Except Failure (List (String × Binary64)) :=
  Reckoner.resolve b.vars

/-- The value of an expression over the variables of the book. -/
def evaluate (b : Book) (expression : String) (context : Context) : Except Failure Binary64 :=
  (Formula.evaluate b.vars context expression).map Evaluation.value

/-- The formula with a given name; there has to be one. -/
def formula (b : Book) (name : String) : Except Refusal Formula :=
  match b.findFormula name with
  | some f => .ok f
  | none => .error (.unknownFormula (Name.normalize name))

/-- Evaluates the formula with a given name. -/
def evaluateNamed (b : Book) (name : String) (context : Context) : Except Refusal Evaluation := do
  let f ← b.formula name
  (Formula.evaluate b.vars context f.expression).mapError .failed

/-- The placeholders of the formula with a given name. -/
def placeholders (b : Book) (name : String) : Except Refusal (List String) := do
  return Placeholder.names (← b.formula name).expression

/-! ## 6. Checked formulas -/

/-- The first variable of a list that the book lacks. -/
def undefined? (b : Book) (names : List String) : Option String :=
  names.find? fun name => (b.findVariable name).isNone

/-- Checks that an expression can be read and refers only to variables of the book. -/
def validate (b : Book) (expression : String) : Except Fault Unit := do
  let lexemes ← Lexeme.ofText .formula expression
  match b.undefined? (Lexeme.references lexemes) with
  | some name => throw (.undefinedVariable name)
  | none => return ()

/-- Adds a formula whose expression passes `validate`. -/
def Edit.addCheckedFormula (f : Formula) : Edit Refusal Unit := do
  match (← get).validate f.expression with
  | .error fault => throw (.failed (.plain fault))
  | .ok () => (addFormula f).adapt .rejected

/-- The book with a formula added whose expression passes `validate`. -/
def addCheckedFormula (b : Book) (f : Formula) : Except Refusal Book :=
  (Edit.addCheckedFormula f).outcome b

end Book

end Reckoner
