import Reckoner.Binary64

/-!
# Decimals

A decimal is a whole number of tenths, hundredths, …, or of tens, hundreds, …: digits and the power
of ten they are multiplied by. This module reads digits, rounds a decimal to the nearest double, and
lays one out without an exponent.
-/

namespace Reckoner

/-- The number `digits · 10 ^ exponent`. -/
structure Decimal where
  digits : Nat
  exponent : Int
  deriving DecidableEq, Repr

namespace Decimal

/-! ## 1. Digits -/

/-- A digit after the digits of `n`. -/
def pushDigit (n : Nat) (c : Char) : Nat :=
  10 * n + (c.toNat - '0'.toNat)

/-- The number that digits stand for. -/
def ofDigits (cs : List Char) : Nat :=
  cs.foldl pushDigit 0

theorem ofDigits_append_singleton (cs : List Char) (c : Char) :
    ofDigits (cs ++ [c]) = pushDigit (ofDigits cs) c := by
  simp [ofDigits, List.foldl_append]

/-- Whether a text starts with a minus sign, and the text behind its sign, if it has one. -/
def takeSign : List Char → Bool × List Char
  | '-' :: cs => (true, cs)
  | '+' :: cs => (false, cs)
  | cs => (false, cs)

theorem takeSign_rest_length_le (cs : List Char) : (takeSign cs).2.length ≤ cs.length := by
  unfold takeSign
  split <;> simp

/-- The decimal written with these digits before and behind the point. -/
def ofParts (whole fraction : List Char) : Decimal :=
  ⟨ofDigits (whole ++ fraction), -fraction.length⟩

/-! ## 2. Rounding -/

/-- The pattern of the double nearest to a decimal.

A decimal of at least `10 ^ 310` is infinite and one below `10 ^ -330` is zero, whatever its digits,
so an exponent far out costs nothing. -/
def nearest (d : Decimal) : Nat :=
  let size : Int := (Nat.toDigits 10 d.digits).length + d.exponent
  if d.digits = 0 ∨ size < -330 then
    0
  else if 310 < size then
    Binary64.infinity
  else
    Binary64.nearest (d.digits * Nat.pow 10 d.exponent.toNat) (Nat.pow 10 (-d.exponent).toNat)

/-! ## 3. Layout -/

/-- A decimal without an exponent: zeros fill the places between the digits and the point. -/
def positional (d : Decimal) : List Char :=
  let digits := Nat.toDigits 10 d.digits
  let places := (-d.exponent).toNat
  if places = 0 then
    digits ++ List.replicate d.exponent.toNat '0'
  else if places < digits.length then
    digits.take (digits.length - places) ++ '.' :: digits.drop (digits.length - places)
  else
    '0' :: '.' :: List.replicate (places - digits.length) '0' ++ digits

end Decimal

end Reckoner
