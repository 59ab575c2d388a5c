import Reckoner.Lexeme
import Reckoner.Name

/-!
# Reading an expression

`Lexeme.ofText` splits the text of an expression into lexemes. It works in two passes.

1. Outside placeholders every character has to belong to the alphabet of the dialect. The leftmost
   one that does not is the fault, whatever else is wrong with the text.
2. The text is cut from left to right. Spaces and tabs separate lexemes and mean nothing else. A run
   of digits and points has to be a literal, and neither a letter nor an underscore may follow it.

Positions count characters, also those inside placeholders.
-/

namespace Reckoner.Lexeme

/-! ## 1. The alphabet -/

/-- The characters that separate lexemes. -/
def isSeparator (c : Char) : Bool :=
  c == ' ' || c == '\t'

/-- The characters that a text may hold outside placeholders. -/
def isAllowed (d : Dialect) (c : Char) : Bool :=
  (Token.ofChar? c).isSome || Number.isNumeric c || isSeparator c ||
    (d.references && Name.isStart c)

/-- The placeholder that a text starts with, in a dialect that has placeholders. -/
def placeholder? (d : Dialect) (cs : List Char) : Option Placeholder.Reading :=
  if d.placeholders then Placeholder.read? cs else none

theorem placeholder?_rest_length_lt {d : Dialect} {cs : List Char} {r : Placeholder.Reading}
    (h : placeholder? d cs = some r) : r.rest.length < cs.length := by
  unfold placeholder? at h
  split at h
  · exact Placeholder.rest_length_lt h
  · simp at h

/-- The leftmost character that the dialect does not allow, with its position, in a text that starts
at a given position. -/
def foreign? (d : Dialect) (position : Nat) : List Char → Option (Char × Nat)
  | [] => none
  | c :: cs =>
    match h : placeholder? d (c :: cs) with
    | some r => foreign? d (position + r.written.length) r.rest
    | none => if isAllowed d c then foreign? d (position + 1) cs else some (c, position)
termination_by cs => cs.length
decreasing_by
  · exact placeholder?_rest_length_lt h
  · simp

/-! ## 2. Cutting the text -/

/-- The lexemes of a text that starts at a given position, behind the lexemes `done` (the last one
first). -/
def cut (d : Dialect) (done : List Lexeme) (position : Nat) :
    List Char → Except Fault (List Lexeme)
  | [] => .ok done.reverse
  | c :: cs =>
    if isSeparator c then
      cut d done (position + 1) cs
    else
      match _h : placeholder? d (c :: cs) with
      | some r =>
        cut d (symbol (.placeholder (String.ofList r.name)) :: done)
          (position + r.written.length) r.rest
      | none =>
        match Token.ofChar? c with
        | some t => cut d (token t :: done) (position + 1) cs
        | none =>
          if Number.isNumeric c then
            let run := c :: cs.takeWhile Number.isNumeric
            let rest := cs.dropWhile Number.isNumeric
            match Number.ofLiteral? run with
            | none => .error (.malformed (.invalidNumber (String.ofList run)))
            | some x =>
              match rest.head?.filter Placeholder.isNameStart with
              | some follower => .error (.invalidCharacter follower (position + run.length))
              | none => cut d (token (.number x) :: done) (position + run.length) rest
          else if d.references && Name.isStart c then
            let name := c :: cs.takeWhile Name.isPart
            cut d (symbol (.reference (String.ofList name)) :: done)
              (position + name.length) (cs.dropWhile Name.isPart)
          else
            .error (.invalidCharacter c position)
termination_by cs => cs.length
decreasing_by
  · simp
  · exact placeholder?_rest_length_lt _h
  · simp
  · exact Nat.lt_succ_of_le (List.dropWhile_suffix _).length_le
  · exact Nat.lt_succ_of_le (List.dropWhile_suffix _).length_le

/-- The lexemes of an expression. -/
def ofText (d : Dialect) (s : String) : Except Fault (List Lexeme) :=
  match foreign? d 0 s.toList with
  | some (c, position) => .error (.invalidCharacter c position)
  | none => cut d [] 0 s.toList

end Reckoner.Lexeme
