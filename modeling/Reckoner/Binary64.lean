/-!
# Doubles

A `Binary64` is a double with all its bits, so that also those that stand for no number are told
apart. Without its sign it is a *pattern*: the patterns below `infinity` stand for finite numbers and
are in their order. Every such number is a whole multiple of the least positive one, `2⁻¹⁰⁷⁴`; `units`
says which multiple. So questions about doubles and decimals become questions about natural numbers,
and no arithmetic on doubles is needed to read or to write one.

`nearest` is the other direction: the pattern of the double nearest to a quotient of natural numbers,
the even one of two that are equally near.

Only the four operations leave the patterns; they are those of `Float`.
-/

namespace Reckoner

/-- A double, as the bits it is stored in. -/
structure Binary64 where
  bits : UInt64
  deriving DecidableEq, Repr

end Reckoner

namespace Reckoner.Binary64

/-! ## 1. From pattern to number -/

/-- The first pattern whose significand has a leading bit that is not stored: `2⁵²`. -/
def hiddenBit : Nat := 0x10000000000000

/-- What the sign adds to a pattern: `2⁶³`. -/
def signBit : Nat := 0x8000000000000000

/-- The pattern of infinity; those of the finite numbers lie below it, those of no number above. -/
def infinity : Nat := 0x7ff0000000000000

/-- The number of a finite pattern, in units of `2⁻¹⁰⁷⁴`: below `2⁵²` the pattern itself, above it
a significand of 53 bits whose first is not stored. -/
def units (pattern : Nat) : Nat :=
  if pattern < hiddenBit then
    pattern
  else
    (hiddenBit + pattern % hiddenBit) <<< (pattern / hiddenBit - 1)

/-! ## 2. From number to pattern -/

/-- The natural number nearest to `num / den`; a half goes to the even neighbour. -/
def roundQuotient (num den : Nat) : Nat :=
  if 2 * (num % den) < den ∨ (2 * (num % den) = den ∧ num / den % 2 = 0) then
    num / den
  else
    num / den + 1

/-- The pattern of the double nearest to `num / den`, infinity included.

The quotient is counted in units of `2⁻¹⁰⁷⁴`, and in coarser ones where it has more than 53 bits. A
significand that rounds up to `2⁵³` carries into the exponent by itself. -/
def nearest (num den : Nat) : Nat :=
  let scaled := num <<< 1074
  let shift := (scaled / den).log2 - 52
  min infinity (shift * hiddenBit + roundQuotient scaled (den <<< shift))

/-! ## 3. Sign and magnitude -/

/-- The pattern of a double. -/
def magnitude (x : Binary64) : Nat :=
  x.bits.toNat % signBit

/-- Whether the sign of a double is set; zero has a sign too. -/
def isNegative (x : Binary64) : Bool :=
  signBit ≤ x.bits.toNat

/-- The double with a given sign and pattern. -/
def ofPattern (negative : Bool) (pattern : Nat) : Binary64 :=
  ⟨UInt64.ofNat (if negative then signBit + pattern else pattern)⟩

/-- The pattern of a double is the one it was made with. -/
theorem magnitude_ofPattern (negative : Bool) {pattern : Nat} (h : pattern < signBit) :
    (ofPattern negative pattern).magnitude = pattern := by
  unfold magnitude ofPattern
  simp only [UInt64.toNat_ofNat']
  unfold signBit at *
  cases negative <;> simp <;> omega

/-- Zero of either sign. -/
def isZero (x : Binary64) : Bool :=
  x.magnitude == 0

/-- Whether a double is a number other than the infinite ones. -/
def isFinite (x : Binary64) : Bool :=
  x.magnitude < infinity

theorem isFinite_ofPattern (negative : Bool) {pattern : Nat} (h : pattern < signBit) :
    (ofPattern negative pattern).isFinite = decide (pattern < infinity) := by
  unfold isFinite
  rw [magnitude_ofPattern negative h]

/-- A double that is no number. -/
def notNumber : Binary64 :=
  ofPattern false 0x7ff8000000000000

/-! ## 4. Arithmetic -/

/-- An operation of `Float` on doubles. -/
def lift (operation : Float → Float → Float) (x y : Binary64) : Binary64 :=
  ⟨(operation (Float.ofBits x.bits) (Float.ofBits y.bits)).toBits⟩

instance : Add Binary64 := ⟨lift (· + ·)⟩

instance : Sub Binary64 := ⟨lift (· - ·)⟩

instance : Mul Binary64 := ⟨lift (· * ·)⟩

instance : Div Binary64 := ⟨lift (· / ·)⟩

end Reckoner.Binary64
