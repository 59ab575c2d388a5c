import Reckoner.Book.Check
import Reckoner.Command.Help
import Reckoner.Definitions.Reading

/-!
# Running a command

What a command prints, and the exit code it ends with. The files are given as a function, so a run is
a function of arguments, environment and files.

A request that fails is reported with the causes of the failure, each explaining the one before: a
failure inside a variable has its fault as a cause of its own.
-/

namespace Reckoner.Command

/-- The contents of files by path; a path without contents names no file. Contents are characters: a
file whose bytes are not all UTF-8 has none, although its other bytes might be JSON, and so has a file
that cannot be read for another reason. -/
abbrev Files := String → Option String

/-- What a run leaves behind. -/
structure Output where
  exitCode : Nat
  stdout : String
  stderr : String
  deriving DecidableEq, Repr

/-! ## 1. Failures of a request -/

/-- A failure: what could not be done, and why. -/
structure Report where
  context : String
  causes : List String
  deriving DecidableEq, Repr

namespace Report

/-- The causes of a failure. -/
def ofFailure (context : String) (f : Failure) : Report :=
  { context
    causes :=
      match f with
      | .plain fault => [fault.message]
      | .within _ fault => [f.message, fault.message] }

/-- The causes of a refusal. -/
def ofRefusal (context : String) : Book.Refusal → Report
  | .failed f => ofFailure context f
  | r => { context, causes := [r.message] }

/-- A cause with a label; its further lines are indented as far as the first. -/
def cause (label : String) (text : String) : String :=
  ("\n" ++ "".pushn ' ' label.length).intercalate ((label ++ text).splitOn "\n")

/-- The text of a report. Several causes are numbered. -/
def text (r : Report) : String :=
  let causes :=
    match r.causes with
    | [] => ""
    | [only] => "\n\nCaused by:\n" ++ cause "    " only
    | several =>
      "\n\nCaused by:\n" ++
        "\n".intercalate (several.mapIdx fun i text => cause ("    " ++ toString i ++ ": ") text)
  "Error: " ++ r.context ++ causes ++ "\n"

end Report

/-- What a request prints before it ends, and how it ends. -/
structure Outcome where
  stdout : String
  stderr : String
  failure : Option Report

namespace Outcome

/-- Success. -/
def success (stdout : String) (stderr : String) : Outcome := ⟨stdout, stderr, none⟩

/-- Success, or failure before anything is printed. -/
def ofExcept : Except Report Outcome → Outcome
  | .ok outcome => outcome
  | .error report => ⟨"", "", some report⟩

/-- The output of a run that ends so. -/
def output (o : Outcome) : Output :=
  match o.failure with
  | none => { exitCode := 0, stdout := o.stdout, stderr := o.stderr }
  | some report => { exitCode := 1, stdout := o.stdout, stderr := o.stderr ++ report.text }

end Outcome

/-! ## 2. Requests -/

/-- Each text on a line of its own. -/
def lines (texts : List String) : String :=
  String.join (texts.map (· ++ "\n"))

/-- A text with spaces behind it up to a width. -/
def padded (width : Nat) (s : String) : String :=
  s.pushn ' ' (width - s.length)

/-- Opens a definitions file. -/
def openBook (files : Files) (path : String) : Except Report Book :=
  let opened :=
    match files path with
    | some contents => Definitions.ofText contents
    | none => .error .missingFile
  opened.mapError fun e =>
    { context := "Failed to load '" ++ path ++ "'", causes := [e.message, e.cause] }

/-- Shows the value of a numeric expression. -/
def runEval (expression : String) : Except Report Outcome := do
  let x ← (evaluateText expression).mapError fun fault =>
    .ofFailure ("Failed to evaluate '" ++ expression ++ "'") (.plain fault)
  return .success (lines [Number.text x]) ""

/-- The word that stands for a kind in a listing. -/
def kindWord : Kind → String
  | .constant => "CONSTANT"
  | .dynamic => "DYNAMIC"

/-- A line of a listing: the name, kind and value of a variable, in columns. -/
def listingLine (width : Nat) (v : Variable) (x : Binary64) : String :=
  padded width v.name.text ++ "  " ++ padded 8 (kindWord v.kind) ++ "  " ++ Number.text x

/-- The lines of a listing, up to the first variable without a value. -/
def listing (values : String → Option Binary64) (width : Nat) :
    List Variable → List String × Option Report
  | [] => ([], none)
  | v :: vs =>
    match values v.name.text with
    | none => ([], some ⟨"Variable " ++ v.name.text ++ " was not resolved", []⟩)
    | some x =>
      let (others, failure) := listing values width vs
      (listingLine width v x :: others, failure)

/-- Lists the variables of a book with kinds and values. -/
def runResolve (b : Book) : Except Report Outcome := do
  let values ← b.resolve.mapError (.ofFailure "Failed to resolve variables")
  let table := Std.HashMap.ofList values
  let width := (b.vars.map fun v => v.name.text.length).foldl max 0
  let (listed, failure) := listing (table[·]?) width b.vars
  return { stdout := lines listed, stderr := "", failure }

/-- The context that assignments make; a later one of a name counts. -/
def contextOf (values : List (String × Binary64)) : Context :=
  fun name => values.reverse.lookup name

/-- Shows the value of a formula, and the numeric expression on the side. -/
def runFormula (b : Book) (formula : String) (values : List (String × Binary64)) :
    Except Report Outcome := do
  let e ← (b.evaluateNamed formula (contextOf values)).mapError
    (.ofRefusal ("Failed to evaluate formula " ++ Text.upperCase formula))
  return .success (lines [Number.text e.value]) (lines [e.numericExpression])

/-- Reports what a check finds; it fails if it counts a problem. -/
def runCheck (b : Book) (path : String) : Outcome :=
  let t := b.tally
  { stdout := lines (t.reported.reverse.map Book.Finding.text)
    stderr := ""
    failure :=
      if t.problems = 0 then none
      else
        some
          { context := toString t.problems ++ " problem(s) found in '" ++ path ++ "'"
            causes := [] } }

/-- Answers a request. -/
def Request.answer (files : Files) : Request → Except Report Outcome
  | .eval expression => runEval expression
  | .placeholders expression => .ok (.success (lines (Placeholder.names expression)) "")
  | .resolve path => do runResolve (← openBook files path)
  | .run path formula values => do runFormula (← openBook files path) formula values
  | .check path => do return runCheck (← openBook files path) path

/-! ## 3. The program -/

/-- The output of a run whose arguments make no request. -/
def Stop.output : Stop → Output
  | .help verb => { exitCode := 0, stdout := helpText verb, stderr := "" }
  | .nothingGiven => { exitCode := 2, stdout := "", stderr := helpText none }
  | .version => { exitCode := 0, stdout := versionLine, stderr := "" }
  | .usage error => { exitCode := 2, stdout := "", stderr := Text.plain error.message }

/-- The output of the program. -/
def run (files : Files) (environment : Option String) (arguments : List String) : Output :=
  match readArguments environment false arguments with
  | .error stop => stop.output
  | .ok request => (Outcome.ofExcept (request.answer files)).output

end Reckoner.Command
