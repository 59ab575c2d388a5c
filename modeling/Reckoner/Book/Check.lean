import Reckoner.Book

/-!
# Checking a book

A check goes through all formulas, then through all dynamic variables, reports what it finds and counts
the problems. Only if it has counted none are the variables resolved: cycles and faults of arithmetic
show then, and a problem with a variable would make resolving fail anyway.
-/

namespace Reckoner.Book

/-! ## 1. Findings -/

/-- What a check says about a book. -/
inductive Finding
  /-- A formula that can be evaluated, and the placeholders it needs values for. -/
  | sound (formula : Name) (needs : List String)
  | badFormula (formula : Name) (fault : Fault)
  /-- A variable that refers to one the book lacks. -/
  | undefinedReference (owner : Name) (name : String)
  /-- A variable whose expression cannot be read. -/
  | unreadable (owner : Name) (fault : Fault)
  | unresolved (failure : Failure)

namespace Finding

/-- The line that reports a finding. -/
def text : Finding → String
  | sound formula [] => "ok    " ++ formula.text
  | sound formula needs =>
    "ok    " ++ formula.text ++ "  (needs " ++ ", ".intercalate needs ++ ")"
  | badFormula formula fault => "error " ++ formula.text ++ ": " ++ fault.message
  | undefinedReference owner name =>
    "error " ++ owner.text ++ ": references undefined variable " ++ name
  | unreadable owner fault => "error " ++ owner.text ++ ": " ++ fault.message
  | unresolved failure => "error variables: " ++ failure.message

end Finding

/-! ## 2. The passes -/

/-- What a check has reported so far (the last finding first), and how many problems it has counted. -/
structure Tally where
  reported : List Finding
  problems : Nat

namespace Tally

/-- Reports that something is well. -/
def approve (t : Tally) (finding : Finding) : Tally :=
  { t with reported := finding :: t.reported }

/-- Reports a problem and counts it. -/
def object (t : Tally) (finding : Finding) : Tally :=
  { reported := finding :: t.reported, problems := t.problems + 1 }

end Tally

/-- Checks a formula. -/
def tallyFormula (b : Book) (t : Tally) (f : Formula) : Tally :=
  match b.validate f.expression with
  | .ok () => t.approve (.sound f.name (Placeholder.names f.expression))
  | .error fault => t.object (.badFormula f.name fault)

/-- Checks a variable on its own. -/
def tallyVariable (b : Book) (t : Tally) (v : Variable) : Tally :=
  match v.kind with
  | .constant => t
  | .dynamic =>
    match dependencies v.text with
    | .ok names =>
      (names.filter fun name => (b.findVariable name).isNone).foldl
        (fun t name => t.object (.undefinedReference v.name name)) t
    | .error fault => t.object (.unreadable v.name fault)

/-- Checks a book. -/
def tally (b : Book) : Tally :=
  let t := b.vars.foldl b.tallyVariable (b.formulas.foldl b.tallyFormula ⟨[], 0⟩)
  if t.problems = 0 then
    match b.resolve with
    | .ok _ => t
    | .error failure => t.object (.unresolved failure)
  else t

end Reckoner.Book
