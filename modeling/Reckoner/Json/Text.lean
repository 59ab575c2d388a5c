import Reckoner.Json.Problem
import Reckoner.Text.Bytes

/-!
# JSON strings

A text is written between double quotes; quotes, backslashes and control characters are escaped, and
nothing else is. Reading knows all escapes of JSON. It has two steps: `scan` finds the closing quote
and cuts what comes before it into pieces, a character or a code unit each, and `decode` joins the
code units of a surrogate pair. A string can be passed over without the second step, so a lone
surrogate does harm only where the text is wanted.
-/

namespace Reckoner.Json.Text

/-! ## 1. Writing -/

/-- One character as it is written inside the quotes. -/
def encodeChar (c : Char) : List Char :=
  match c with
  | '"' => ['\\', '"']
  | '\\' => ['\\', '\\']
  | '\x08' => ['\\', 'b']
  | '\t' => ['\\', 't']
  | '\n' => ['\\', 'n']
  | '\x0c' => ['\\', 'f']
  | '\r' => ['\\', 'r']
  | c =>
    if c.toNat < 0x20 then
      ['\\', 'u', '0', '0', Nat.digitChar (c.toNat / 16), Nat.digitChar (c.toNat % 16)]
    else
      [c]

/-- A text between double quotes. -/
def encode (cs : List Char) : List Char :=
  '"' :: cs.flatMap encodeChar ++ ['"']

/-- A text between double quotes. -/
def quote (s : String) : String :=
  String.ofList (encode s.toList)

/-! ## 2. Finding the end -/

/-- A part of a string: a character, or a UTF-16 code unit given by its number. -/
inductive Piece
  | char (c : Char)
  | unit (n : Nat)
  deriving DecidableEq, Repr

/-- The character that an escape of one letter stands for. -/
def escaped? : Char → Option Char
  | '"' => some '"'
  | '\\' => some '\\'
  | '/' => some '/'
  | 'b' => some '\x08'
  | 'f' => some '\x0c'
  | 'n' => some '\n'
  | 'r' => some '\r'
  | 't' => some '\t'
  | _ => none

/-- The value of a hexadecimal digit. -/
def hexDigit? (c : Char) : Option Nat :=
  if c.isDigit then some (c.toNat - '0'.toNat)
  else if 'a' ≤ c ∧ c ≤ 'f' then some (c.toNat - 'a'.toNat + 10)
  else if 'A' ≤ c ∧ c ≤ 'F' then some (c.toNat - 'A'.toNat + 10)
  else none

/-- The code unit that four digits give. -/
def unit? (a b c d : Char) : Option Nat := do
  return 0x1000 * (← hexDigit? a) + 0x100 * (← hexDigit? b) + 0x10 * (← hexDigit? c) +
    (← hexDigit? d)

/-- The pieces of a string and what follows its closing quote, or what goes wrong before it; `done`
are the pieces found already (the last one first).

Four bytes are taken for the digits of a code unit before they are looked at, so a text that ends
within them has ended too early, whatever they are. -/
def scan (done : List Piece) : List Char → List Piece × Except Problem (List Char)
  | [] => (done.reverse, .error .endInText)
  | '"' :: cs => (done.reverse, .ok cs)
  | ['\\'] => (done.reverse, .error .endInText)
  | '\\' :: 'u' :: a :: b :: c :: d :: cs =>
    match unit? a b c d with
    | some n => scan (.unit n :: done) cs
    | none => (done.reverse, .error .malformedUnit)
  | '\\' :: 'u' :: cs =>
    (done.reverse, .error (if Text.byteCount cs < 4 then .endInText else .malformedUnit))
  | '\\' :: c :: cs =>
    match escaped? c with
    | some e => scan (.char e :: done) cs
    | none => (done.reverse, .error .unknownEscape)
  | c :: cs =>
    if c.toNat < 0x20 then (done.reverse, .error .controlCharacter)
    else scan (.char c :: done) cs

/-- What follows the closing quote is shorter than the text. -/
theorem scan_rest_length_lt {done : List Piece} {cs : List Char} {pieces : List Piece}
    {rest : List Char} (h : scan done cs = (pieces, .ok rest)) : rest.length < cs.length := by
  fun_induction scan done cs with
  | case2 done cs => cases h; simp
  | case4 done a b c d cs n unit ih => have := ih h; simp; omega
  | case7 done c cs _ _ e escaped ih => have := ih h; simp; omega
  | case10 done c cs _ _ _ _ _ _ ih => have := ih h; simp; omega
  | _ => cases h

/-! ## 3. Joining code units -/

/-- Whether a code unit is the first of a surrogate pair. -/
def isLeading (n : Nat) : Bool :=
  0xd800 ≤ n && n ≤ 0xdbff

/-- Whether a code unit is the second of a surrogate pair. -/
def isTrailing (n : Nat) : Bool :=
  0xdc00 ≤ n && n ≤ 0xdfff

/-- The character of a surrogate pair. -/
def pair (leading trailing : Nat) : Char :=
  Char.ofNat (0x10000 + 0x400 * (leading - 0xd800) + (trailing - 0xdc00))

/-- The characters that pieces stand for, behind the characters `done` (the last one first). `ending`
is what goes wrong after the pieces, if something does.

Behind a leading surrogate a unit is asked for at once; only the end of the text and the digits of
that unit can go wrong before it is missed. -/
def decode (ending : Option Problem) (done : List Char) : List Piece → Except Problem (List Char)
  | [] =>
    match ending with
    | none => .ok done.reverse
    | some problem => .error problem
  | .char c :: ps => decode ending (c :: done) ps
  | .unit n :: ps =>
    if isTrailing n then .error .loneSurrogate
    else if isLeading n then
      match ps with
      | .unit m :: ps =>
        if isTrailing m then decode ending (pair n m :: done) ps else .error .loneSurrogate
      | .char _ :: _ => .error .unfinishedPair
      | [] =>
        match ending with
        | some .endInText => .error .endInText
        | some .malformedUnit => .error .malformedUnit
        | _ => .error .unfinishedPair
    else decode ending (Char.ofNat n :: done) ps

/-- The text of a string that was scanned to its closing quote, or to a problem. -/
def content (ending : Option Problem) (ps : List Piece) : Except Problem String :=
  (decode ending [] ps).map String.ofList

end Reckoner.Json.Text
