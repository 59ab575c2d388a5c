import Reckoner.Json.Token

/-!
# JSON trees

The tokens of a text are put together to a tree as far as they go. A text goes wrong in one place at
most, and that place is inside every bracket that is still open there; so each open list or object
ends in the same `Damage`, and all else in the tree is sound. A reader that never comes to the damage
does not notice it.

`Document.ofTokens` is a machine: the brackets that are open around the current place form a stack,
each with what it holds already, and what may come next is an `Await`. So the depth of a text needs
no bound.
-/

namespace Reckoner.Json

/-! ## 1. Trees -/

/-- The problem at the place where a text goes wrong, as it is met by a reader that wants the value
there, by one that passes over it, and by one that has all it wants of a list and expects its end. -/
structure Damage where
  wanted : Problem
  skipped : Problem
  closing : Problem
  deriving DecidableEq, Repr

/-- The key of a member: its text, unless its code units do not make one. -/
abbrev Key := Except Problem String

/-- A value of a text that may be damaged. -/
inductive Node
  | null
  | bool (b : Bool)
  | number (n : Numeral)
  | text (content : Except Problem String)
  | list (items : List Node) (damage : Option Damage)
  /-- The last member lacks a value if the damage comes before it. -/
  | object (members : List (Key × Option Node)) (damage : Option Damage)

/-- A member of an object. -/
abbrev Member := Key × Option Node

/-- The damage inside a value. -/
def Node.damage? : Node → Option Damage
  | .list _ damage => damage
  | .object _ damage => damage
  | _ => none

/-! ## 2. The machine -/

/-- A bracket that is open around the value that is read: what it holds (the last one first), and the
key of the value. -/
inductive Bracket
  | list (items : List Node)
  | object (members : List Member) (key : Key)

/-- Where a value stands. -/
inductive Place
  /-- The whole text. -/
  | top
  /-- Behind the bracket that opens a list, where the list may also end. -/
  | first
  /-- Behind a comma in a list. -/
  | item
  /-- Behind a colon. -/
  | member
  deriving DecidableEq, Repr

/-- What may come next. -/
inductive Await
  | value (place : Place)
  /-- A comma or the end of the innermost list. -/
  | afterItem (items : List Node)
  /-- The key of a member, or the end of the innermost object if there is no comma before. -/
  | key (first : Bool) (members : List Member)
  | colon (members : List Member) (label : Key)
  /-- A comma or the end of the innermost object. -/
  | afterMember (members : List Member)

/-- What a token leads to. -/
inductive Advance
  | go (stack : List Bracket) (await : Await)
  | whole (root : Node)
  | damaged (damage : Damage)

/-- Puts a value into the innermost bracket; without one it is the whole text. -/
def Advance.ofValue (node : Node) : List Bracket → Advance
  | [] => .whole node
  | .list items :: stack => .go stack (.afterItem (node :: items))
  | .object members key :: stack => .go stack (.afterMember ((key, some node) :: members))

namespace Await

/-- The damage of a text that ends here. -/
def atEnd : Await → Damage
  | value .first => ⟨.endInList, .endInList, .endInList⟩
  | value _ => ⟨.endInValue, .endInValue, .trailingCharacters⟩
  | afterItem _ => ⟨.endInList, .endInList, .endInList⟩
  | key true _ => ⟨.endInObject, .endInObject, .trailingCharacters⟩
  | key false _ => ⟨.endInValue, .endInObject, .trailingCharacters⟩
  | colon _ _ => ⟨.endInObject, .endInObject, .trailingCharacters⟩
  | afterMember _ => ⟨.endInObject, .endInObject, .trailingCharacters⟩

/-- The damage of a token that cannot stand at a place, where both kinds of reader meet the same
problem. -/
def misplaced (problem : Problem) : Advance :=
  .damaged ⟨problem, problem, .trailingCharacters⟩

/-- The damage of a broken token. -/
def broken (b : Breakage) : Advance :=
  .damaged ⟨b.wanted, b.skipped, .trailingCharacters⟩

/-- What a token leads to where a value stands. -/
def takeValue (stack : List Bracket) (place : Place) : Token → Advance
  | .null => .ofValue .null stack
  | .bool b => .ofValue (.bool b) stack
  | .number n => .ofValue (.number n) stack
  | .text content => .ofValue (.text content) stack
  | .openList => .go (.list [] :: stack) (.value .first)
  | .openObject => .go stack (.key true [])
  | .closeList =>
    match place, stack with
    | .first, .list _ :: stack => .ofValue (.list [] none) stack
    | .item, _ => .damaged ⟨.trailingComma, .expectedValue, .trailingComma⟩
    | _, _ => misplaced .expectedValue
  | .brokenValue b => broken b
  | .brokenText b => broken b
  | .closeObject | .comma | .colon | .stray => misplaced .expectedValue

/-- What a token leads to. -/
def take (stack : List Bracket) : Await → Token → Advance
  | value place, t => takeValue stack place t
  | afterItem items, t =>
    match t with
    | .comma => .go (.list items :: stack) (.value .item)
    | .closeList => .ofValue (.list items.reverse none) stack
    | _ => misplaced .expectedCommaInList
  | key first members, t =>
    match t with
    | .text content => .go stack (.colon members content)
    | .brokenText b => broken b
    | .closeObject =>
      if first then .ofValue (.object members.reverse none) stack
      else .damaged ⟨.trailingComma, .keyNotText, .trailingCharacters⟩
    | _ => misplaced .keyNotText
  | colon members label, t =>
    match t with
    | .colon => .go (.object members label :: stack) (.value .member)
    | _ => misplaced .expectedColon
  | afterMember members, t =>
    match t with
    | .comma => .go stack (.key false members)
    | .closeObject => .ofValue (.object members.reverse none) stack
    | _ => misplaced .expectedCommaInObject

/-- The innermost list or object when it is cut off by damage, unless a value was to come. -/
def cutOff (damage : Damage) : Await → Option Node
  | value _ => none
  | afterItem items => some (.list items.reverse (some damage))
  | key _ members => some (.object members.reverse (some damage))
  | colon members label => some (.object ((label, none) :: members).reverse (some damage))
  | afterMember members => some (.object members.reverse (some damage))

end Await

/-- The tree of a text that is cut off by damage inside `inner`, if a value has begun there. -/
def closeAll (damage : Damage) (inner : Option Node) : List Bracket → Except Damage Node
  | [] =>
    match inner with
    | some node => .ok node
    | none => .error damage
  | .list items :: stack =>
    closeAll damage (some (.list (inner.toList ++ items).reverse (some damage))) stack
  | .object members key :: stack =>
    closeAll damage (some (.object ((key, inner) :: members).reverse (some damage))) stack

/-- A text: its value, if one has begun, and the tokens behind it. -/
structure Document where
  root : Except Damage Node
  rest : List Token

namespace Document

/-- Puts the tokens of a text together, from a state of the machine on. -/
def assemble (stack : List Bracket) (await : Await) : List Token → Document
  | [] => ⟨closeAll await.atEnd (await.cutOff await.atEnd) stack, []⟩
  | t :: ts =>
    match await.take stack t with
    | .go stack await => assemble stack await ts
    | .whole root => ⟨.ok root, ts⟩
    | .damaged damage => ⟨closeAll damage (await.cutOff damage) stack, []⟩

/-- The document that tokens make. -/
def ofTokens (ts : List Token) : Document :=
  assemble [] (.value .top) ts

/-- The document of a text. -/
def ofText (s : String) : Document :=
  ofTokens (Token.ofText s)

end Document

end Reckoner.Json
