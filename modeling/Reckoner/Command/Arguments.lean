import Reckoner.Command.Assignment

/-!
# Arguments of the command line

The arguments name a command and give what it works on. Options may stand before and after other
arguments, a short option may have its value attached (`-dFILE`, `-d=FILE`), short flags may be joined
(`-vv`), and after `--` nothing is an option. A definitions file that is not given is taken from the
environment.

Arguments are read from left to right and the first error is reported. An option's value is looked at
only when the next argument is recognized, or at the end; so an argument that is not recognized at
all is reported in preference to a bad value just before it.
-/

namespace Reckoner.Command

/-! ## 1. Commands and options -/

/-- The commands. -/
inductive Verb
  | eval
  | placeholders
  | resolve
  | run
  | check
  deriving DecidableEq, Repr

namespace Verb

/-- All commands, in the order in which help lists them. -/
def all : List Verb := [eval, placeholders, resolve, run, check]

/-- The word for a command. -/
def word : Verb → String
  | eval => "eval"
  | placeholders => "placeholders"
  | resolve => "resolve"
  | run => "run"
  | check => "check"

/-- The command that a word names. -/
def ofWord? (s : String) : Option Verb :=
  all.find? fun v => v.word == s

/-- Whether a command works on a definitions file. -/
def takesFile : Verb → Bool
  | eval | placeholders => false
  | resolve | run | check => true

/-- Whether a command takes an argument that is no option. -/
def takesOperand : Verb → Bool
  | eval | placeholders | run => true
  | resolve | check => false

end Verb

/-- The options. -/
inductive Switch
  | verbose
  | help
  | version
  | defs
  | assign
  deriving DecidableEq, Repr

namespace Switch

/-- The long name of an option. -/
def long : Switch → String
  | verbose => "verbose"
  | help => "help"
  | version => "version"
  | defs => "defs"
  | assign => "set"

/-- The short name of an option. -/
def short : Switch → Char
  | verbose => 'v'
  | help => 'h'
  | version => 'V'
  | defs => 'd'
  | assign => 's'

/-- Whether an option has a value. -/
def takesValue : Switch → Bool
  | defs | assign => true
  | verbose | help | version => false

/-- An option as messages name it. -/
def text : Switch → String
  | defs => "--defs <DEFS>"
  | assign => "--set <NAME=VALUE>"
  | verbose => "--verbose..."
  | help => "--help"
  | version => "--version"

end Switch

/-- The options that are known before a command, and behind one. -/
def switches : Option Verb → List Switch
  | none => [.verbose, .help, .version]
  | some v =>
    (if v = .run then [.assign] else []) ++ (if v.takesFile then [.defs] else []) ++
      [.verbose, .help]

/-! ## 2. Requests and errors -/

/-- What is asked for. -/
inductive Request
  | eval (expression : String)
  | placeholders (expression : String)
  | resolve (path : String)
  | run (path formula : String) (values : List (String × Binary64))
  | check (path : String)

/-- Why arguments make no request. -/
inductive UsageError
  | noCommand
  | unknownCommand (word : String)
  | unexpectedArgument (argument : String)
  | unexpectedValue (value : String) (switch : Switch)
  | missingValue (switch : Switch)
  | repeated (switch : Switch)
  | invalidAssignment (value : String) (error : AssignmentError)
  | missingArguments
  deriving DecidableEq, Repr

/-- Why reading the arguments ends before a request is complete. -/
inductive Stop
  | usage (error : UsageError)
  | nothingGiven
  | help (verb : Option Verb)
  | version
  deriving DecidableEq, Repr

/-! ## 3. Arguments of a command -/

/-- What has been given to a command so far; `pending` is the last option, with its value if that has
been given, while the value has not been looked at. -/
structure Given where
  file : Option String
  operand : Option String
  values : List (String × Binary64)
  pending : Option (Switch × Option String)

namespace Given

/-- Nothing. -/
def nothing : Given := ⟨none, none, [], none⟩

/-- Looks at the value of an option. -/
def accept (g : Given) (switch : Switch) (value : String) : Except Stop Given :=
  match switch with
  | .defs =>
    if g.file.isSome then .error (.usage (.repeated .defs))
    else if value.isEmpty then .error (.usage (.missingValue .defs))
    else .ok { g with file := some value }
  | .assign =>
    match readAssignment value with
    | .ok assignment => .ok { g with values := g.values ++ [assignment] }
    | .error error => .error (.usage (.invalidAssignment value error))
  | .verbose | .help | .version => .ok g

/-- Looks at the value of the last option, if that has not been done. -/
def settle (g : Given) : Except Stop Given :=
  match g.pending with
  | none => .ok g
  | some (switch, none) => .error (.usage (.missingValue switch))
  | some (switch, some value) => { g with pending := none }.accept switch value

/-- Takes an option that is given without a value attached. -/
def take (verb : Option Verb) (g : Given) (switch : Switch) : Except Stop Given := do
  let g ← g.settle
  match switch with
  | .help => throw (.help verb)
  | .version => throw .version
  | .verbose => return g
  | .defs | .assign => return { g with pending := some (switch, none) }

/-- Takes an option with a value attached. -/
def takeAttached (g : Given) (switch : Switch) (value : String) : Except Stop Given := do
  if switch.takesValue then
    (← g.settle).accept switch value
  else
    throw (.usage (.unexpectedValue value switch))

/-- Takes an argument that starts with two hyphens, behind those. -/
def takeLong (verb : Option Verb) (g : Given) (cs : List Char) : Except Stop Given :=
  let name := String.ofList (cs.takeWhile (· != '='))
  match (switches verb).find? fun switch => switch.long == name with
  | none => .error (.usage (.unexpectedArgument ("--" ++ name)))
  | some switch =>
    match cs.dropWhile (· != '=') with
    | [] => g.take verb switch
    | _ :: value => g.takeAttached switch (String.ofList value)

/-- Takes an argument that starts with one hyphen, behind that: flags, of which the last may be an
option with the rest as its value. -/
def takeShort (verb : Option Verb) (g : Given) : List Char → Except Stop Given
  | [] => .ok g
  | c :: cs =>
    match (switches verb).find? fun switch => switch.short == c with
    | none => .error (.usage (.unexpectedArgument (String.ofList ['-', c])))
    | some switch =>
      if switch.takesValue then
        match cs with
        | [] => g.take verb switch
        | '=' :: value => g.takeAttached switch (String.ofList value)
        | value => g.takeAttached switch (String.ofList value)
      else do
        takeShort verb (← g.take verb switch) cs

/-- Takes an argument that is no option. -/
def takeOperand (verb : Verb) (g : Given) (argument : String) : Except Stop Given := do
  if verb.takesOperand && g.operand.isNone then
    return { ← g.settle with operand := some argument }
  else
    throw (.usage (.unexpectedArgument argument))

/-- Takes an argument before `--`: an option, the value of the last option, or an operand. -/
def takeArgument (verb : Verb) (g : Given) (argument : String) : Except Stop Given :=
  match argument.toList with
  | '-' :: '-' :: cs => g.takeLong (some verb) cs
  | '-' :: c :: cs => g.takeShort (some verb) (c :: cs)
  | _ =>
    match g.pending with
    | some (switch, none) => .ok { g with pending := some (switch, some argument) }
    | _ => g.takeOperand verb argument

/-- Takes all arguments of a command. -/
def takeAll (verb : Verb) (g : Given) : List String → Except Stop Given
  | [] => g.settle
  | "--" :: arguments => do (← arguments.foldlM (takeOperand verb) g).settle
  | argument :: arguments => do takeAll verb (← g.takeArgument verb argument) arguments

/-- The definitions file: the one given, or the one of the environment. -/
def path (g : Given) (environment : Option String) : Except Stop (Option String) :=
  match g.file, environment with
  | some file, _ => .ok (some file)
  | none, some file => if file.isEmpty then .error (.usage (.missingValue .defs)) else .ok (some file)
  | none, none => .ok none

/-- The request that a command makes with what it has been given. -/
def request (verb : Verb) (g : Given) (environment : Option String) : Except Stop Request := do
  let path ← if verb.takesFile then g.path environment else pure none
  match verb, path, g.operand with
  | .eval, _, some expression => return .eval expression
  | .placeholders, _, some expression => return .placeholders expression
  | .resolve, some path, _ => return .resolve path
  | .run, some path, some formula => return .run path formula g.values
  | .check, some path, _ => return .check path
  | _, _, _ => throw (.usage .missingArguments)

end Given

/-! ## 4. All arguments -/

/-- What `help` is asked about: all commands, one of them, or itself. -/
def readHelp : List String → Stop
  | [] => .help none
  | word :: words =>
    match Verb.ofWord? word, words with
    | some verb, [] => .help (some verb)
    | some _, word :: _ => .usage (.unknownCommand word)
    | none, [] => if word = "help" then .help none else .usage (.unknownCommand word)
    | none, next :: _ => .usage (.unknownCommand (if word = "help" then next else word))

/-- What arguments without a command come to: what follows `--` is none. -/
def noVerb (flagged : Bool) : List String → Stop
  | [] => if flagged then .usage .noCommand else .nothingGiven
  | word :: _ =>
    if (Verb.ofWord? word).isSome || word = "help" then .usage (.unexpectedArgument word)
    else .usage (.unknownCommand word)

/-- The request that arguments make; `flagged` says whether a flag came before them. -/
def readArguments (environment : Option String) (flagged : Bool) :
    List String → Except Stop Request
  | [] => .error (noVerb flagged [])
  | argument :: arguments =>
    match Verb.ofWord? argument with
    | some verb => do (← Given.nothing.takeAll verb arguments).request verb environment
    | none =>
      if argument = "help" then
        .error (readHelp arguments)
      else if argument = "--" then
        .error (noVerb flagged arguments)
      else
        match argument.toList with
        | '-' :: '-' :: cs => do
          discard (Given.nothing.takeLong none cs)
          readArguments environment true arguments
        | '-' :: c :: cs => do
          discard (Given.nothing.takeShort none (c :: cs))
          readArguments environment true arguments
        | _ => .error (.usage (.unknownCommand argument))

end Reckoner.Command
