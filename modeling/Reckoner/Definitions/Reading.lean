import Reckoner.Book
import Reckoner.Definitions.Error
import Reckoner.Json.Tree

/-!
# Reading a definitions file

A definitions file is a JSON object with two lists, `variables` and `formulas`, each of which may be
absent. A variable is an object with a name, a kind and an expression, a formula one with a name and
an expression. Members may come in any order. Unknown members are passed over.

The text is read from left to right, and the first thing wrong with it is the error, whether it is
the JSON or what the JSON says. The entries are then added to an empty book in order, so a file
passes the same checks as entries made by hand.

Some forms other than the usual ones are known: the lists of a book, or the name and the expression
of a formula, may be given as a list of two, and a kind as an object with that kind as its only key.
-/

namespace Reckoner.Definitions

open Json (Node Member Damage)

/-! ## 1. Values of one type -/

/-- The error of a value that stands where something else belongs. A number out of range, or a string
whose code units make no text, is that error itself. -/
def misfit (wanted : Wanted) : Node → Error
  | .null => .unfit (.unexpected .null wanted)
  | .bool b => .unfit (.unexpected (.bool b) wanted)
  | .number n =>
    match n.value with
    | .ok quantity => .unfit (.unexpected (.number quantity) wanted)
    | .error problem => .illFormed problem
  | .text (.ok s) => .unfit (.unexpected (.text s) wanted)
  | .text (.error problem) => .illFormed problem
  | .list .. => .unfit (.unexpected .list wanted)
  | .object .. => .unfit (.unexpected .object wanted)

/-- A text. -/
def readText : Node → Except Error String
  | .text (.ok s) => .ok s
  | node => .error (misfit .text node)

/-- A name. -/
def readName (node : Node) : Except Error Name := do
  (Name.ofText (← readText node)).mapError fun r => .unfit (.rejected r)

/-- A key. -/
def readKey (key : Json.Key) : Except Error String :=
  key.mapError .illFormed

/-- Nothing more, unless the text goes wrong here. -/
def sound (damage : Option Damage) : Except Error Unit :=
  match damage with
  | some d => .error (.illFormed d.wanted)
  | none => .ok ()

/-- The end of a list after as many items as are wanted. -/
def ended (more : List Node) (damage : Option Damage) : Except Error Unit :=
  match more, damage with
  | [], none => .ok ()
  | [], some d => .error (.illFormed d.closing)
  | _ :: _, _ => .error (.illFormed .trailingCharacters)

/-- The value of a member; without one the text goes wrong before it. -/
def present (damage : Option Damage) : Option Node → Except Error Node
  | some node => .ok node
  | none => .error (.illFormed ((damage.map Damage.wanted).getD .endInValue))

/-- Passes over the value of a member. -/
def skip (damage : Option Damage) (value : Option Node) : Except Error Unit :=
  let met :=
    match value with
    | some node => node.damage?
    | none => damage
  match met with
  | some d => .error (.illFormed d.skipped)
  | none => .ok ()

/-- How deep lists and objects may be nested where a value is kept without looking at what it is. The
bound is 127 for the whole text, and such a value stands inside three brackets. -/
def depthBound : Nat := 124

/-- Checks a value that is kept without looking at what it is. -/
def keep : Nat → Node → Except Json.Problem Unit
  | _, .null => .ok ()
  | _, .bool _ => .ok ()
  | _, .number n => n.value.map fun _ => ()
  | _, .text content => content.map fun _ => ()
  | 0, .list .. => .error .nestedTooDeep
  | 0, .object .. => .error .nestedTooDeep
  | depth + 1, .list items damage => do
    items.forM (keep depth)
    damage.forM fun d => .error d.wanted
  | depth + 1, .object members damage => do
    members.forM fun (key, value) => do
      discard key
      value.forM (keep depth)
    damage.forM fun d => .error d.wanted

/-! ## 2. Variables -/

/-- The kind that a word names. -/
def kindOfWord (word : String) : Except Misfit Kind :=
  match word with
  | "constant" => .ok .constant
  | "dynamic" => .ok .dynamic
  | _ => .error (.unknownKind word)

/-- Whether a value stands for nothing: null, or an object without members. -/
def isNothing : Node → Bool
  | .null => true
  | .object [] none => true
  | _ => false

/-- A kind: a word, or an object with that word as its only key and nothing as its value. -/
def readKind : Node → Except Error Kind
  | .text (.ok word) => (kindOfWord word).mapError .unfit
  | .object [(key, value)] damage => do
    let kind ← (kindOfWord (← readKey key)).mapError .unfit
    let value ← present damage value
    if isNothing value then
      return kind
    else
      throw (misfit .nothing value)
  | .object .. => .error (.unfit .notSingle)
  | node => .error (misfit .textOrObject node)

/-- The two members that define a variable. -/
inductive Field
  | kind
  | expression
  deriving DecidableEq, Repr

/-- The key of a field. -/
def Field.key : Field → String
  | kind => "kind"
  | expression => "expression"

/-- The field with a given key. -/
def Field.ofKey? (key : String) : Option Field :=
  if key = Field.kind.key then some .kind
  else if key = Field.expression.key then some .expression
  else none

/-- No more fields: each may be given once. -/
def noMore : List (Field × Node) → Except Error Unit
  | [] => .ok ()
  | (field, _) :: _ => .error (.unfit (.duplicateField field.key))

/-- Kind and text of a variable from its fields in their order. The kind is looked at when it is met;
a text that is met first waits for it. -/
def readDefinition : List (Field × Node) → Except Error (Kind × String)
  | [] => .error (.unfit (.missingField Field.kind.key))
  | (.kind, value) :: fields => do
    let kind ← readKind value
    match fields with
    | [] => throw (.unfit (.missingField Field.expression.key))
    | (.kind, _) :: _ => throw (.unfit (.duplicateField Field.kind.key))
    | (.expression, text) :: fields =>
      let text ← readText text
      noMore fields
      return (kind, text)
  | (.expression, text) :: fields =>
    match fields with
    | [] => .error (.unfit (.missingField Field.kind.key))
    | (.expression, _) :: _ => .error (.unfit (.duplicateField Field.expression.key))
    | (.kind, value) :: fields => do
      let kind ← readKind value
      let text ← readText text
      noMore fields
      return (kind, text)

/-- The members of a variable behind those read already: its name, and the values of its fields (the
last one first). Every value but the name is kept as it is. -/
def readMembers (damage : Option Damage) (name : Option Name) (fields : List (Field × Node)) :
    List Member → Except Error (Option Name × List (Field × Node))
  | [] => do
    sound damage
    return (name, fields.reverse)
  | (key, value) :: members => do
    let key ← readKey key
    if key = "name" then
      if name.isSome then
        throw (.unfit (.duplicateField "name"))
      readMembers damage (some (← readName (← present damage value))) fields members
    else
      let value ← present damage value
      (keep depthBound value).mapError .illFormed
      match Field.ofKey? key with
      | some field => readMembers damage name ((field, value) :: fields) members
      | none => readMembers damage name fields members

/-- A variable. -/
def readVariable : Node → Except Error Variable
  | .object members damage => do
    let (name, fields) ← readMembers damage none [] members
    match name with
    | none => throw (.unfit (.missingField "name"))
    | some name =>
      let (kind, text) ← readDefinition fields
      return { name, kind, text }
  | node => .error (misfit .someVariable node)

/-! ## 3. Formulas -/

/-- The members of a formula behind those read already. -/
def readFormulaMembers (damage : Option Damage) (name : Option Name) (expression : Option String) :
    List Member → Except Error Formula
  | [] => do
    sound damage
    match name, expression with
    | none, _ => throw (.unfit (.missingField "name"))
    | _, none => throw (.unfit (.missingField "expression"))
    | some name, some expression => return { name, expression }
  | (key, value) :: members => do
    let key ← readKey key
    if key = "name" then
      if name.isSome then
        throw (.unfit (.duplicateField "name"))
      readFormulaMembers damage (some (← readName (← present damage value))) expression members
    else if key = "expression" then
      if expression.isSome then
        throw (.unfit (.duplicateField "expression"))
      readFormulaMembers damage name (some (← readText (← present damage value))) members
    else
      skip damage value
      readFormulaMembers damage name expression members

/-- A formula. -/
def readFormula : Node → Except Error Formula
  | .object members damage => readFormulaMembers damage none none members
  | .list items damage =>
    match items with
    | [] => do
      sound damage
      throw (.unfit (.tooShort 0))
    | name :: items => do
      let name ← readName name
      match items with
      | [] =>
        sound damage
        throw (.unfit (.tooShort 1))
      | expression :: items =>
        let expression ← readText expression
        ended items damage
        return { name, expression }
  | node => .error (misfit .someFormula node)

/-! ## 4. The book -/

/-- The entries of a book, before they are added. -/
structure Entries where
  vars : List Variable
  formulas : List Formula

/-- A list of entries. -/
def readEntries {α : Type} (readEntry : Node → Except Error α) : Node → Except Error (List α)
  | .list items damage => do
    let entries ← items.mapM readEntry
    sound damage
    return entries
  | node => .error (misfit .entries node)

/-- The members of a book behind those read already. -/
def readBookMembers (damage : Option Damage) (vars : Option (List Variable))
    (formulas : Option (List Formula)) : List Member → Except Error Entries
  | [] => do
    sound damage
    return ⟨vars.getD [], formulas.getD []⟩
  | (key, value) :: members => do
    let key ← readKey key
    if key = "variables" then
      if vars.isSome then
        throw (.unfit (.duplicateField "variables"))
      let entries ← readEntries readVariable (← present damage value)
      readBookMembers damage (some entries) formulas members
    else if key = "formulas" then
      if formulas.isSome then
        throw (.unfit (.duplicateField "formulas"))
      let entries ← readEntries readFormula (← present damage value)
      readBookMembers damage vars (some entries) members
    else
      skip damage value
      readBookMembers damage vars formulas members

/-- The entries of a book. -/
def readBook : Node → Except Error Entries
  | .object members damage => readBookMembers damage none none members
  | .list items damage =>
    match items with
    | [] => do
      sound damage
      return ⟨[], []⟩
    | vars :: items => do
      let vars ← readEntries readVariable vars
      match items with
      | [] =>
        sound damage
        return ⟨vars, []⟩
      | formulas :: items =>
        let formulas ← readEntries readFormula formulas
        ended items damage
        return ⟨vars, formulas⟩
  | node => .error (misfit .book node)

/-- The book that has these entries added in order, variables first. -/
def Entries.toBook (e : Entries) : Except Rejection Book := do
  e.formulas.foldlM Book.addFormula (← e.vars.foldlM Book.addVariable .empty)

/-- The book of a document. What stands behind the value is looked at last. -/
def ofDocument (d : Json.Document) : Except Error Book := do
  let root ← d.root.mapError fun damage => .illFormed damage.wanted
  let entries ← readBook root
  let book ← entries.toBook.mapError fun r => .unfit (.rejected r)
  if d.rest.isEmpty then
    return book
  else
    throw (.illFormed .trailingCharacters)

/-- The book of a definitions file. -/
def ofText (s : String) : Except Error Book :=
  ofDocument (Json.Document.ofText s)

end Reckoner.Definitions
