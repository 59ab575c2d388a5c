import Reckoner.Text.Blank
import Reckoner.Text.Bytes
import Reckoner.Text.Order

/-!
# Placeholders

A placeholder `{{#name}}` stands inside a formula for a value that is supplied only when the formula
is evaluated. There may be white space between the braces and the name, of any kind. A name is a
letter or underscore followed by letters, digits and underscores, all of ASCII; upper and lower case
differ.

`read?` reads the placeholder that a text starts with. `spans` lists all placeholders of a text with
their places, `names` their names in the order of code points, each once.
-/

namespace Reckoner.Placeholder

/-! ## 1. One placeholder -/

/-- A character that may start the name of a placeholder. -/
def isNameStart (c : Char) : Bool :=
  c.isAlpha || c == '_'

/-- A character that may go on in the name of a placeholder. -/
def isNamePart (c : Char) : Bool :=
  c.isAlphanum || c == '_'

/-- Whether a text is the name of a placeholder. -/
def isName (cs : List Char) : Bool :=
  cs.head?.any isNameStart && cs.all isNamePart

/-- A placeholder at the start of a text: its name, how it is written, and what follows it. -/
structure Reading where
  name : List Char
  written : List Char
  rest : List Char

/-- The placeholder that a text starts with. -/
def read? : List Char → Option Reading
  | '{' :: '{' :: cs =>
    match cs.dropWhile Text.isBlank with
    | '#' :: inner =>
      let name := inner.takeWhile isNamePart
      let behind := inner.dropWhile isNamePart
      match behind.dropWhile Text.isBlank with
      | '}' :: '}' :: rest =>
        if isName name then
          some
            { name
              written :=
                '{' :: '{' :: cs.takeWhile Text.isBlank ++ '#' :: name ++
                  behind.takeWhile Text.isBlank ++ ['}', '}']
              rest }
        else none
      | _ => none
    | _ => none
  | _ => none

/-- A placeholder and what follows it make up the text. -/
theorem written_append_rest {cs : List Char} {r : Reading} (h : read? cs = some r) :
    r.written ++ r.rest = cs := by
  unfold read? at h
  split at h
  · rename_i cs
    split at h
    · rename_i inner hash
      dsimp only at h
      split at h
      · rename_i rest close
        split at h
        · cases h
          have outer := List.takeWhile_append_dropWhile (p := Text.isBlank) (l := cs)
          have name := List.takeWhile_append_dropWhile (p := isNamePart) (l := inner)
          have behind := List.takeWhile_append_dropWhile (p := Text.isBlank)
            (l := inner.dropWhile isNamePart)
          rw [hash] at outer
          rw [close] at behind
          simp only [List.cons_append, List.append_assoc, List.nil_append]
          rw [behind, name, outer]
        · simp at h
      · simp at h
    · simp at h
  · simp at h

/-- What follows a placeholder is shorter than the text. -/
theorem rest_length_lt {cs : List Char} {r : Reading} (h : read? cs = some r) :
    r.rest.length < cs.length := by
  have whole := written_append_rest h
  have start : r.written ≠ [] := by
    unfold read? at h
    split at h <;> try simp at h
    split at h <;> try simp at h
    split at h <;> try simp at h
    obtain ⟨_, rfl⟩ := h
    simp
  rw [← whole, List.length_append]
  have := List.length_pos_iff.mpr start
  omega

/-! ## 2. All placeholders of a text -/

/-- A placeholder of a text: offsets of its start and end in bytes of UTF-8, and its name. -/
structure Span where
  start : Nat
  stop : Nat
  name : String
  deriving DecidableEq, Repr

/-- The placeholders of a text that starts at a byte offset, from left to right. -/
def spansFrom (offset : Nat) : List Char → List Span
  | [] => []
  | c :: cs =>
    match _h : read? (c :: cs) with
    | some r =>
      let stop := offset + Text.byteCount r.written
      ⟨offset, stop, String.ofList r.name⟩ :: spansFrom stop r.rest
    | none => spansFrom (offset + c.utf8Size) cs
termination_by cs => cs.length
decreasing_by
  · exact rest_length_lt _h
  · simp

/-- The placeholders of a text, from left to right. -/
def spans (s : String) : List Span :=
  spansFrom 0 s.toList

/-- The names of the placeholders of a text, each once, in the order of code points. -/
def names (s : String) : List String :=
  Text.sortedDistinct ((spans s).map Span.name)

/-- The text of the placeholder with a given name, without inner white space. -/
def text (name : String) : String :=
  "\x7b\x7b#" ++ name ++ "\x7d\x7d"

end Reckoner.Placeholder
