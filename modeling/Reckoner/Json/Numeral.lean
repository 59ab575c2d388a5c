import Reckoner.Decimal.Shortest
import Reckoner.Json.Problem

/-!
# JSON numbers

A number of a definitions file is never used, as all its entries are texts. Its value still shows: in
the message about a number where something else belongs, and because a number too large to be finite
is refused where it is read.

A number is whole if it is written without point and exponent and fits into 64 bits. Any other is a
double found by one multiplication or division of its leading digits, which is not always the
nearest.
-/

namespace Reckoner.Json

/-- A number as it is written: sign, digits before and behind the point, and the sign and digits of
the exponent. -/
structure Numeral where
  negative : Bool
  whole : List Char
  fraction : List Char
  exponent : Option (Bool × List Char)
  deriving DecidableEq, Repr

/-- The value of a number. -/
inductive Quantity
  | whole (n : Int)
  | floating (x : Binary64)
  deriving DecidableEq, Repr

namespace Numeral

/-! ## 1. Reading the digits -/

/-- At least one digit, and what follows the digits. -/
def digits (cs : List Char) : Except Problem (List Char × List Char) :=
  match cs.takeWhile Char.isDigit with
  | [] => .error (if cs.isEmpty then .endInValue else .invalidNumber)
  | ds => .ok (ds, cs.dropWhile Char.isDigit)

theorem digits_rest_length_lt {cs ds rest : List Char} (h : digits cs = .ok (ds, rest)) :
    rest.length < cs.length := by
  have parts := congrArg List.length (List.takeWhile_append_dropWhile (p := Char.isDigit) (l := cs))
  rw [List.length_append] at parts
  unfold digits at h
  split at h
  · cases h
  · rename_i nonempty
    cases h
    have := List.length_pos_iff.mpr nonempty
    omega

/-- The digits before the point; a zero is followed by no other digit. -/
def wholeDigits (cs : List Char) : Except Problem (List Char × List Char) :=
  match digits cs with
  | .ok ('0' :: _ :: _, _) => .error .invalidNumber
  | result => result

/-- The digits behind the point, if there is a point. -/
def fractionDigits : List Char → Except Problem (List Char × List Char)
  | '.' :: cs => digits cs
  | cs => .ok ([], cs)

/-- The sign and the digits of the exponent, if there is an exponent. -/
def exponentDigits : List Char → Except Problem (Option (Bool × List Char) × List Char)
  | c :: cs =>
    if c = 'e' ∨ c = 'E' then do
      let (ds, rest) ← digits (Decimal.takeSign cs).2
      return (some ((Decimal.takeSign cs).1, ds), rest)
    else
      .ok (none, c :: cs)
  | [] => .ok (none, [])

/-- The number at the start of a text behind its sign, and what follows it. -/
def readUnsigned (negative : Bool) (cs : List Char) : Except Problem (Numeral × List Char) := do
  let (whole, cs) ← wholeDigits cs
  let (fraction, cs) ← fractionDigits cs
  let (exponent, cs) ← exponentDigits cs
  return ({ negative, whole, fraction, exponent }, cs)

theorem wholeDigits_rest_length_lt {cs ds rest : List Char}
    (h : wholeDigits cs = .ok (ds, rest)) : rest.length < cs.length := by
  unfold wholeDigits at h
  split at h
  · cases h
  · exact digits_rest_length_lt h

theorem fractionDigits_rest_length_le {cs ds rest : List Char}
    (h : fractionDigits cs = .ok (ds, rest)) : rest.length ≤ cs.length := by
  unfold fractionDigits at h
  split at h
  · exact Nat.le_trans (Nat.le_of_lt (digits_rest_length_lt h)) (Nat.le_succ _)
  · cases h
    exact Nat.le_refl _

theorem exponentDigits_rest_length_le {cs rest : List Char} {e : Option (Bool × List Char)}
    (h : exponentDigits cs = .ok (e, rest)) : rest.length ≤ cs.length := by
  unfold exponentDigits at h
  split at h
  · rename_i c cs
    split at h
    · cases taken : digits (Decimal.takeSign cs).2 with
      | error problem => simp [taken, bind, Except.bind] at h
      | ok result =>
        obtain ⟨ds, behind⟩ := result
        simp only [taken, bind, Except.bind, pure, Except.pure] at h
        cases h
        exact Nat.le_trans (Nat.le_of_lt (digits_rest_length_lt taken))
          (Nat.le_trans (Decimal.takeSign_rest_length_le cs) (Nat.le_succ _))
    · cases h
      exact Nat.le_refl _
  · cases h
    exact Nat.le_refl _

/-- What follows a number is shorter than the text. -/
theorem readUnsigned_rest_length_lt {negative : Bool} {cs rest : List Char} {n : Numeral}
    (h : readUnsigned negative cs = .ok (n, rest)) : rest.length < cs.length := by
  unfold readUnsigned at h
  cases whole : wholeDigits cs with
  | error problem => simp [whole, bind, Except.bind] at h
  | ok first =>
    cases fraction : fractionDigits first.2 with
    | error problem => simp [whole, fraction, bind, Except.bind] at h
    | ok second =>
      cases exponent : exponentDigits second.2 with
      | error problem => simp [whole, fraction, exponent, bind, Except.bind] at h
      | ok third =>
        simp only [whole, fraction, exponent, bind, Except.bind, pure, Except.pure] at h
        cases h
        exact Nat.lt_of_le_of_lt (exponentDigits_rest_length_le exponent)
          (Nat.lt_of_le_of_lt (fractionDigits_rest_length_le fraction)
            (wholeDigits_rest_length_lt whole))

/-! ## 2. The value -/

/-- The leading digits that still fit into 64 bits when they follow those of `n`, and the digits left
out. -/
def accumulate (n : Nat) : List Char → Nat × List Char
  | [] => (n, [])
  | c :: cs =>
    if Decimal.pushDigit n c < UInt64.size then accumulate (Decimal.pushDigit n c) cs else (n, c :: cs)

/-- The double nearest to `10 ^ n`. -/
def power (n : Nat) : Binary64 :=
  .ofPattern false (Binary64.nearest (Nat.pow 10 n) 1)

/-- `x · 10 ^ e` by one multiplication or division, after divisions by `10 ^ 308` where `e` is far
below zero. -/
def scale (x : Binary64) (e : Int) : Except Problem Binary64 :=
  if x.isZero then
    .ok x
  else if 308 < e then
    .error .numberOutOfRange
  else if 0 ≤ e then
    let product := x * power e.toNat
    if product.isFinite then .ok product else .error .numberOutOfRange
  else if -308 ≤ e then
    .ok (x / power (-e).toNat)
  else
    scale (x / power 308) (e + 308)
termination_by (-e).toNat
decreasing_by omega

/-- The value of a number, if it is in range. -/
def value (n : Numeral) : Except Problem Quantity :=
  let (leading, dropped) := accumulate 0 n.whole
  let signed (x : Binary64) : Binary64 := .ofPattern n.negative x.magnitude
  if n.fraction.isEmpty && n.exponent.isNone && dropped.isEmpty &&
      (!n.negative || (leading != 0 && leading ≤ UInt64.size / 2)) then
    .ok (.whole (if n.negative then -leading else leading))
  else
    let (leading, ignored) := accumulate leading n.fraction
    let shift : Int := dropped.length - (n.fraction.length - ignored.length : Nat)
    let x : Binary64 := .ofPattern false (Binary64.nearest leading 1)
    match n.exponent with
    | none => (scale x shift).map fun x => .floating (signed x)
    | some (negative, ds) =>
      let e := Decimal.ofDigits ds
      if UInt32.size / 2 ≤ e then
        if leading != 0 && !negative then .error .numberOutOfRange else .ok (.floating (.ofPattern n.negative 0))
      else
        (scale x (if negative then shift - e else shift + e)).map fun x => .floating (signed x)

end Numeral

/-! ## 3. Showing a value -/

/-- The text of a double: positional with at least one digit on either side of the point from `10⁻⁵`
up to `10¹⁶`, with an exponent elsewhere. The exponent has a sign, also if it is positive. -/
def layout (d : Decimal) : List Char :=
  let digits := Nat.toDigits 10 d.digits
  let point : Int := digits.length + d.exponent
  if 0 ≤ d.exponent ∧ point ≤ 16 then
    digits ++ List.replicate d.exponent.toNat '0' ++ ['.', '0']
  else if -5 < point ∧ point ≤ 16 then
    d.positional
  else
    let exponent := 'e' :: (if 0 < point then '+' else '-') :: Nat.toDigits 10 (point - 1).natAbs
    match digits with
    | [_] => digits ++ exponent
    | first :: others => first :: '.' :: others ++ exponent
    | [] => exponent

/-- A number in a message. -/
def Quantity.description : Quantity → String
  | whole n => "integer `" ++ toString n ++ "`"
  | floating x =>
    let pattern := x.magnitude
    let digits :=
      if pattern = 0 then ['0', '.', '0'] else layout (Decimal.shortest .even pattern)
    "floating point `" ++ String.ofList (if x.isNegative then '-' :: digits else digits) ++
      "`"

end Reckoner.Json
