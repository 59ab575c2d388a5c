import Reckoner.Command.Arguments
import Reckoner.Text.ControlSequence

/-!
# Help and usage errors

The texts that tell how the command line is used. A usage error is worded for a terminal; what is
printed of it is the plain text.
-/

namespace Reckoner.Command

/-- The name of the program. -/
def programName : String := "formulary"

/-- The line that a request for the version is answered with. -/
def versionLine : String := programName ++ " 0.1.0\n"

/-- What the program does. -/
def about : String := "Evaluate named variables and formulas"

/-- What a command does. -/
def Verb.about : Verb → String
  | eval => "Evaluate a purely numeric expression"
  | placeholders => "List the \x7b\x7b#name\x7d\x7d placeholders an expression references"
  | resolve => "Resolve every variable in a definitions file"
  | run => "Evaluate a stored formula"
  | check => "Validate the formulas and variables of a definitions file"

/-- The arguments of a command, as its usage line shows them. -/
def Verb.arguments : Verb → String
  | eval | placeholders => "[OPTIONS] <EXPRESSION>"
  | resolve | check => "[OPTIONS] --defs <DEFS>"
  | run => "[OPTIONS] --defs <DEFS> <FORMULA>"

/-- The help of the program, or of one of its commands. -/
def helpText : Option Verb → String
  | none =>
    let line (v : Verb) : String :=
      "  " ++ v.word ++ "".pushn ' ' (14 - v.word.length) ++ v.about ++ "\n"
    about ++ "\n\nUsage: " ++ programName ++ " [OPTIONS] <COMMAND>\n\nCommands:\n" ++
      String.join (Verb.all.map line)
  | some v => v.about ++ "\n\nUsage: " ++ programName ++ " " ++ v.word ++ " " ++ v.arguments ++ "\n"

/-- What is wrong with the arguments. Arguments and options are emphasised. -/
def UsageError.summary : UsageError → String
  | noCommand => "'" ++ Text.emphasized programName ++ "' requires a subcommand but one was not provided"
  | unknownCommand word => "unrecognized subcommand '" ++ Text.emphasized word ++ "'"
  | unexpectedArgument argument => "unexpected argument '" ++ Text.emphasized argument ++ "' found"
  | unexpectedValue value switch =>
    "unexpected value '" ++ Text.emphasized value ++ "' for '" ++ Text.emphasized switch.text ++
      "' found; no more were expected"
  | missingValue switch =>
    "a value is required for '" ++ Text.emphasized switch.text ++ "' but none was supplied"
  | repeated switch =>
    "the argument '" ++ Text.emphasized switch.text ++ "' cannot be used multiple times"
  | invalidAssignment value error =>
    "invalid value '" ++ Text.emphasized value ++ "' for '" ++ Text.emphasized Switch.assign.text ++
      "': " ++ error.message
  | missingArguments => "the following required arguments were not provided:"

/-- The wording of a usage error, with a hint. -/
def UsageError.message (e : UsageError) : String :=
  Text.emphasized "error:" ++ " " ++ e.summary ++ "\n\nFor more information, try '" ++
    Text.emphasized "--help" ++ "'.\n"

end Reckoner.Command
