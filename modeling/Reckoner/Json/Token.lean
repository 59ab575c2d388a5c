import Reckoner.Json.Numeral
import Reckoner.Json.Text

/-!
# JSON tokens

A text is first cut into tokens, without regard to where they stand. What cannot be cut is a token
too, so that the place where it stands decides which problem is reported: a `stray` character begins
no token, and after a `broken` one the rest of the text has no meaning.
-/

namespace Reckoner.Json

/-- The problem at a place, as it is met by a reader that wants the value there and by one that only
passes over it. -/
structure Breakage where
  wanted : Problem
  skipped : Problem
  deriving DecidableEq, Repr

/-- A unit of a JSON text. -/
inductive Token
  | openList
  | closeList
  | openObject
  | closeObject
  | comma
  | colon
  | null
  | bool (b : Bool)
  | number (n : Numeral)
  /-- A string with its text, unless its code units do not make one. -/
  | text (content : Except Problem String)
  | stray
  /-- A word or a number that is cut short or goes wrong. -/
  | brokenValue (breakage : Breakage)
  /-- A string that is cut short or goes wrong. -/
  | brokenText (breakage : Breakage)

namespace Token

/-! ## 1. Single tokens -/

/-- The white space of JSON. -/
def isBlank (c : Char) : Bool :=
  c == ' ' || c == '\n' || c == '\t' || c == '\r'

/-- What follows the rest of a word that has begun. -/
def word : List Char → List Char → Except Problem (List Char)
  | [], cs => .ok cs
  | _ :: _, [] => .error .endInValue
  | w :: ws, c :: cs => if c = w then word ws cs else .error .expectedWord

theorem word_rest_length_le {ws cs rest : List Char} (h : word ws cs = .ok rest) :
    rest.length ≤ cs.length := by
  fun_induction word ws cs with
  | case1 cs => cases h; exact Nat.le_refl _
  | case2 => cases h
  | case3 _ _ _ ih => exact Nat.le_trans (ih h) (Nat.le_succ _)
  | case4 => cases h

/-- The token of a word that has begun, and what follows it. -/
def ofWord (t : Token) (ws cs : List Char) : Token × List Char :=
  match word ws cs with
  | .ok rest => (t, rest)
  | .error problem => (.brokenValue ⟨problem, problem⟩, [])

/-- The token of a number behind its sign, and what follows it. A number that is cut short is a
malformed one to a reader that passes over it. -/
def ofNumber (negative : Bool) (cs : List Char) : Token × List Char :=
  match Numeral.readUnsigned negative cs with
  | .ok (n, rest) => (.number n, rest)
  | .error problem => (.brokenValue ⟨problem, .invalidNumber⟩, [])

/-- The token of a string behind its opening quote, and what follows it. -/
def ofQuoted (cs : List Char) : Token × List Char :=
  match Text.scan [] cs with
  | (pieces, .ok rest) => (.text (Text.content none pieces), rest)
  | (pieces, .error problem) =>
    match Text.content (some problem) pieces with
    | .error first => (.brokenText ⟨first, problem⟩, [])
    | .ok _ => (.brokenText ⟨problem, problem⟩, [])

/-- The token at the start of a text that does not start with white space, and what follows it. -/
def first (c : Char) (cs : List Char) : Token × List Char :=
  match c with
  | '[' => (.openList, cs)
  | ']' => (.closeList, cs)
  | '{' => (.openObject, cs)
  | '}' => (.closeObject, cs)
  | ',' => (.comma, cs)
  | ':' => (.colon, cs)
  | 'n' => ofWord .null ['u', 'l', 'l'] cs
  | 't' => ofWord (.bool true) ['r', 'u', 'e'] cs
  | 'f' => ofWord (.bool false) ['a', 'l', 's', 'e'] cs
  | '"' => ofQuoted cs
  | '-' => ofNumber true cs
  | c => if c.isDigit then ofNumber false (c :: cs) else (.stray, cs)

theorem ofWord_rest_length_le (t : Token) (ws cs : List Char) :
    (ofWord t ws cs).2.length ≤ cs.length := by
  unfold ofWord
  split
  · rename_i h
    exact word_rest_length_le h
  · simp

theorem ofQuoted_rest_length_le (cs : List Char) : (ofQuoted cs).2.length ≤ cs.length := by
  unfold ofQuoted
  split
  · rename_i h
    exact Nat.le_of_lt (Text.scan_rest_length_lt h)
  · split <;> simp

theorem ofNumber_rest_length_lt (negative : Bool) {cs : List Char} (h : cs ≠ []) :
    (ofNumber negative cs).2.length < cs.length := by
  unfold ofNumber
  split
  · rename_i h
    exact Numeral.readUnsigned_rest_length_lt h
  · exact List.length_pos_iff.mpr h

theorem ofNumber_rest_length_le (negative : Bool) (cs : List Char) :
    (ofNumber negative cs).2.length ≤ cs.length := by
  cases cs with
  | nil => exact Nat.le_refl 0
  | cons c cs => exact Nat.le_of_lt (ofNumber_rest_length_lt negative (List.cons_ne_nil _ _))

/-- What follows a token is shorter than the text. -/
theorem first_rest_length_le (c : Char) (cs : List Char) : (first c cs).2.length ≤ cs.length := by
  have number (c : Char) : (ofNumber false (c :: cs)).2.length ≤ cs.length :=
    Nat.le_of_lt_succ (ofNumber_rest_length_lt _ (List.cons_ne_nil _ _))
  unfold first
  split
  case h_7 | h_8 | h_9 => exact ofWord_rest_length_le _ _ _
  case h_10 => exact ofQuoted_rest_length_le _
  case h_11 => exact ofNumber_rest_length_le _ _
  case h_12 =>
    split
    · exact number _
    · exact Nat.le_refl _
  all_goals exact Nat.le_refl _

/-! ## 2. A text -/

/-- The tokens of a text, behind the tokens `done` (the last one first). -/
def readFrom (done : List Token) : List Char → List Token
  | [] => done.reverse
  | c :: cs =>
    if isBlank c then
      readFrom done cs
    else
      match _h : first c cs with
      | (t, rest) => readFrom (t :: done) rest
termination_by cs => cs.length
decreasing_by
  · simp
  · have := first_rest_length_le c cs
    rw [_h] at this
    exact Nat.lt_succ_of_le this

/-- The tokens of a text. -/
def ofText (s : String) : List Token :=
  readFrom [] s.toList

end Token

end Reckoner.Json
