import Reckoner.Decimal

/-!
# The shortest decimal that reads back

A double is shown by the decimal with the fewest digits among those that round to it, and by the one
nearest to it among several of that length.

The decimals that round to a double form an interval: it ends half-way to the neighbours, and the
ends belong to it when the pattern is even. All bounds are whole numbers of halves of `10⁻¹⁰⁷⁴`, since
`2⁻¹⁰⁷⁴ = 5¹⁰⁷⁴ · 10⁻¹⁰⁷⁴`. The multiples of `10^j` in that unit are a grid; the coarsest grid with a
point inside gives the fewest digits, and a grid has a point inside only if one of the two around the
double is. The finest grid holds the double itself, so the search ends.
-/

namespace Reckoner.Decimal

/-- Which of two decimals stands for a double exactly between them. -/
inductive Tie
  | up
  | even
  deriving DecidableEq, Repr

/-- The decimals that round to a double, in halves of `10⁻¹⁰⁷⁴`: bounds, the double itself, and
whether the bounds belong. -/
structure Basin where
  low : Nat
  value : Nat
  high : Nat
  closed : Bool

/-- The basin of a finite pattern other than zero. -/
def Basin.ofPattern (pattern : Nat) : Basin where
  low := (Binary64.units (pattern - 1) + Binary64.units pattern) * Nat.pow 5 1074
  value := 2 * Binary64.units pattern * Nat.pow 5 1074
  high := (Binary64.units pattern + Binary64.units (pattern + 1)) * Nat.pow 5 1074
  closed := pattern % 2 == 0

/-- Whether a number rounds to the double. -/
def Basin.contains (b : Basin) (x : Nat) : Bool :=
  if b.closed then b.low ≤ x && x ≤ b.high else b.low < x && x < b.high

/-- The point of the grid `10^j` that stands for the double, if one does: the nearer of its two
neighbours on the grid that are inside. -/
def Basin.point? (b : Basin) (tie : Tie) (j : Nat) : Option Nat :=
  let step := 2 * Nat.pow 10 j
  let below := b.value / step
  let rest := b.value % step
  match b.contains (below * step), b.contains ((below + 1) * step) with
  | true, true =>
    if 2 * rest < step then
      some below
    else if 2 * rest = step ∧ tie = .even ∧ below % 2 = 0 then
      some below
    else
      some (below + 1)
  | true, false => some below
  | false, true => some (below + 1)
  | false, false => none

/-- The coarsest of the grids `10^j`, …, `10^0` with a point inside, and that point. -/
def Basin.search (b : Basin) (tie : Tie) : Nat → Decimal
  | 0 => ⟨b.value / 2, -1074⟩
  | j + 1 =>
    match b.point? tie (j + 1) with
    | some digits => ⟨digits, (j : Int) + 1 - 1074⟩
    | none => b.search tie j

/-- A grid too coarse to have a point inside: `10^j` is more than the bounds, as `30103 / 100000` is
more than the logarithm of 2. -/
def Basin.start (b : Basin) : Nat :=
  b.high.log2 * 30103 / 100000 + 2

/-- The shortest decimal that rounds to a finite pattern other than zero. -/
def shortest (tie : Tie) (pattern : Nat) : Decimal :=
  let b := Basin.ofPattern pattern
  b.search tie b.start

end Reckoner.Decimal
