import Reckoner.Decimal.Shortest
import Reckoner.Text.Blank
import Reckoner.Text.Digit

/-!
# Numbers and their text

Numbers are doubles. A number is shown by its shortest decimal, never with an exponent, or by its digits
if it is whole and not too large, which comes to the same but for zero: that is shown without a sign.
Two kinds of text are read as a number:

* a *literal* inside an expression is digits, or digits, a point and digits;
* the text of a *constant* may have a sign, may leave out the digits on one side of the point, and
  may have white space around it, but has to be finite.

Both are rounded to the nearest double. A value given on the command line may also have an exponent,
or be infinite or no number; `ofValue?` reads those. A constant is read the same way, once its form is
found to be that of a constant.
-/

namespace Reckoner.Number

open Reckoner

/-! ## 1. Showing a number -/

/-- The shortest decimal of a number, with its sign; so zero may have one. -/
def decimalText (x : Binary64) : String :=
  let pattern := x.magnitude
  if Binary64.infinity < pattern then
    "NaN"
  else
    let digits :=
      if pattern = Binary64.infinity then ['i', 'n', 'f']
      else if pattern = 0 then ['0']
      else (Decimal.shortest .up pattern).positional
    String.ofList (if x.isNegative then '-' :: digits else digits)

/-- A number without its sign, if it is whole and below `10 ^ 15`. -/
def whole? (x : Binary64) : Option Nat :=
  let units := Binary64.units x.magnitude
  let one := Nat.pow 2 1074
  if x.isFinite && units % one == 0 && units / one < Nat.pow 10 15 then some (units / one) else none

/-- The text of a number: a whole number is shown by its digits, every other number by its shortest
decimal. -/
def text (x : Binary64) : String :=
  match whole? x with
  | some n =>
    let digits := Nat.toDigits 10 n
    String.ofList (if x.isNegative && n != 0 then '-' :: digits else digits)
  | none => decimalText x

/-! ## 2. Reading a literal -/

/-- The characters of a literal: ASCII digits and the point. -/
def isNumeric (c : Char) : Bool :=
  c.isDigit || c == '.'

/-- The digits before the point and, if there is a point, those behind it. -/
def parts? (cs : List Char) : Option (List Char × Option (List Char)) :=
  let whole := cs.takeWhile Char.isDigit
  match cs.dropWhile Char.isDigit with
  | [] => some (whole, none)
  | '.' :: fraction => if fraction.all Char.isDigit then some (whole, some fraction) else none
  | _ => none

/-- The decimal of a literal: digits, or digits, a point and digits. -/
def literal? (cs : List Char) : Option Decimal := do
  let (whole, fraction) ← parts? cs
  if whole.isEmpty || fraction == some [] then none else some (.ofParts whole (fraction.getD []))

/-- The number of a literal; it is infinite if the literal is large. -/
def ofLiteral? (cs : List Char) : Option Binary64 :=
  (literal? cs).map fun d => .ofPattern false d.nearest

/-! ## 3. Reading a value -/

/-- The decimal of a value without sign and exponent: digits on at least one side of an optional
point. -/
def unsigned? (cs : List Char) : Option Decimal := do
  let (whole, fraction) ← parts? cs
  let fraction := fraction.getD []
  if whole.isEmpty && fraction.isEmpty then none else some (.ofParts whole fraction)

/-- The exponent at the end of a value: none, or `e`, an optional sign and digits. -/
def exponent? : List Char → Option Int
  | [] => some 0
  | c :: cs =>
    let (negative, ds) := Decimal.takeSign cs
    if (c == 'e' || c == 'E') && !ds.isEmpty && ds.all Char.isDigit then
      some (if negative then -Decimal.ofDigits ds else Decimal.ofDigits ds)
    else
      none

/-- The decimal of a value without its sign, with an optional exponent. -/
def scaled? (cs : List Char) : Option Decimal := do
  let d ← unsigned? (cs.takeWhile isNumeric)
  let e ← exponent? (cs.dropWhile isNumeric)
  return { d with exponent := d.exponent + e }

/-- The number that the text of a value stands for. Words are read in any case. -/
def ofValue? (cs : List Char) : Option Binary64 :=
  let (negative, cs) := Decimal.takeSign cs
  let word := cs.map Char.toLower
  if word = ['i', 'n', 'f'] ∨ word = ['i', 'n', 'f', 'i', 'n', 'i', 't', 'y'] then
    some (.ofPattern negative Binary64.infinity)
  else if word = ['n', 'a', 'n'] then
    some .notNumber
  else
    (scaled? cs).map fun d => .ofPattern negative d.nearest

/-! ## 4. Reading a constant -/

/-- Whether a text has the form of a constant without its sign: digits, which a point and more digits
may follow, or a point and digits. The digits may be of any script. -/
def isPlain (cs : List Char) : Bool :=
  let whole := cs.takeWhile Text.isDigit
  match cs.dropWhile Text.isDigit with
  | [] => !whole.isEmpty
  | '.' :: fraction => fraction.all Text.isDigit && !(whole.isEmpty && fraction.isEmpty)
  | _ => false

/-- The number that the text of a constant stands for, if it stands for a finite one. The text must have
the form of a constant and be the text of a value; so it has no exponent and is no word, and its digits
are those of ASCII. -/
def ofConstant? (s : String) : Option Binary64 :=
  let cs := Text.trimmed s.toList
  if isPlain (Decimal.takeSign cs).2 then (ofValue? cs).filter Binary64.isFinite else none

theorem isFinite_of_ofConstant? {s : String} {x : Binary64} (h : ofConstant? s = some x) :
    x.isFinite = true := by
  unfold ofConstant? at h
  dsimp only at h
  split at h
  · exact (Option.filter_eq_some_iff.mp h).2
  · cases h

end Reckoner.Number
