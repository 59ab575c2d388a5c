import Mathlib
import Reckoner.Decimal

/-!
# Decimals are rounded correctly

A number is rounded correctly if no double is nearer to it than the one it is rounded to, and if of
two that are equally near the even one is taken (`Binary64.CorrectlyRounded`). Infinity takes part as
if it were `2¹⁰²⁴`, the number that would come next: so what is too large for a double is rounded to it,
and the largest finite double gets all that is nearer to itself. A number has one correct rounding
(`Binary64.CorrectlyRounded.unique`).

**The double nearest to a decimal is its correct rounding** (`Decimal.correctlyRounded`), however long
its digits are and however far out its exponent is. Patterns are a significand on a grid, and the grids
are nested: near a number only its own grid has to be looked at, and there it is enough to be nearest
among whole numbers.
-/

namespace Reckoner.Binary64

/-! ## 1. What correct rounding is -/

/-- The number that a pattern stands for. -/
def value (pattern : Nat) : ℚ :=
  units pattern / 2 ^ 1074

/-- Of two candidates that stand for numbers, the first is to be taken for `q`: it is nearer, or it is
as near and even. -/
def Preferred (number : Nat → ℚ) (q : ℚ) (taken other : Nat) : Prop :=
  |number taken - q| ≤ |number other - q| ∧
    (|number taken - q| = |number other - q| → other = taken ∨ taken % 2 = 0)

/-- **A pattern is the correct rounding of a number.** -/
structure CorrectlyRounded (q : ℚ) (pattern : Nat) : Prop where
  le_infinity : pattern ≤ infinity
  preferred : ∀ p ≤ infinity, Preferred value q pattern p

/-! ## 2. Patterns and their grids -/

/-- A significand on the grid of the multiples of `2 ^ shift`: of 53 bits, or of less on the finest
grid. The first one that is too long stands for the next double. -/
structure OnGrid (shift significand : Nat) : Prop where
  le : significand ≤ 2 * hiddenBit
  leading : shift = 0 ∨ hiddenBit ≤ significand

theorem units_of_onGrid {shift significand : Nat} (h : OnGrid shift significand) :
    units (shift * hiddenBit + significand) = significand * 2 ^ shift := by
  obtain ⟨le, leading⟩ := h
  unfold units
  simp only [Nat.shiftLeft_eq]
  by_cases small : shift * hiddenBit + significand < hiddenBit
  · have e : shift = 0 := by
      rcases leading with e | leading
      · exact e
      · omega
    subst e
    rw [if_pos small]
    simp
  · rw [if_neg small]
    rcases Nat.lt_or_eq_of_le le with lt | e
    · obtain ⟨low, rfl⟩ : ∃ low, significand = hiddenBit + low :=
        ⟨significand - hiddenBit, by
          rcases leading with e | leading
          · subst e; omega
          · omega⟩
      have e : shift * hiddenBit + (hiddenBit + low) = low + hiddenBit * (shift + 1) := by ring
      have low_lt : low < hiddenBit := by omega
      rw [e, Nat.add_mul_mod_self_left, Nat.mod_eq_of_lt low_lt,
        Nat.add_mul_div_left _ _ (by decide), Nat.div_eq_of_lt low_lt]
      simp
    · subst e
      have e : shift * hiddenBit + 2 * hiddenBit = hiddenBit * (shift + 2) := by ring
      rw [e, Nat.mul_mod_right, Nat.mul_div_cancel_left _ (by decide), Nat.add_zero,
        Nat.add_sub_assoc (by decide), pow_add]
      ring

/-- Every pattern is a significand on a grid. -/
theorem exists_onGrid (pattern : Nat) : ∃ shift significand, OnGrid shift significand ∧
    significand < 2 * hiddenBit ∧ pattern = shift * hiddenBit + significand := by
  have whole := Nat.div_add_mod' pattern hiddenBit
  have low := Nat.mod_lt pattern (show 0 < hiddenBit by decide)
  cases high : pattern / hiddenBit with
  | zero =>
    rw [high] at whole
    exact ⟨0, pattern, ⟨by omega, .inl rfl⟩, by omega, by omega⟩
  | succ shift =>
    rw [high, Nat.succ_mul] at whole
    exact ⟨shift, hiddenBit + pattern % hiddenBit, ⟨by omega, .inr (by omega)⟩, by omega, by omega⟩

/-- **Patterns are in the order of their numbers.** -/
theorem units_strictMono : StrictMono units := by
  refine strictMono_nat_of_lt_succ fun pattern => ?_
  obtain ⟨shift, significand, grid, lt, rfl⟩ := exists_onGrid pattern
  have next : OnGrid shift (significand + 1) :=
    ⟨by omega, grid.leading.imp id fun leading => by omega⟩
  rw [Nat.add_assoc, units_of_onGrid grid, units_of_onGrid next]
  exact Nat.mul_lt_mul_of_pos_right (Nat.lt_succ_self _) (by positivity)

theorem value_strictMono : StrictMono value := fun _ _ lt =>
  div_lt_div_of_pos_right (by exact_mod_cast units_strictMono lt) (by positivity)

/-! ## 3. The nearest whole number -/

/-- Different whole numbers are not both near to the same number. -/
theorem one_le_abs_sub_add_abs_sub {n k : Nat} (ne : k ≠ n) (x : ℚ) :
    1 ≤ |(k : ℚ) - x| + |(n : ℚ) - x| := by
  have apart : (1 : ℚ) ≤ |(k : ℚ) - n| := by
    exact_mod_cast Int.one_le_abs (show (k : ℤ) - n ≠ 0 by omega)
  calc (1 : ℚ) ≤ |(k : ℚ) - n| := apart
    _ ≤ |(k : ℚ) - x| + |x - n| := abs_sub_le _ _ _
    _ = |(k : ℚ) - x| + |(n : ℚ) - x| := by rw [abs_sub_comm x]

/-- A quotient is rounded to a number within a half of it, to an even one if it is a half away. -/
theorem roundQuotient_near (num : Nat) {den : Nat} (positive : 0 < den) :
    |(roundQuotient num den : ℚ) - num / den| ≤ 1 / 2 ∧
      (|(roundQuotient num den : ℚ) - num / den| = 1 / 2 → roundQuotient num den % 2 = 0) := by
  have hd : (0 : ℚ) < den := by exact_mod_cast positive
  -- the number is its whole part and a fraction
  obtain ⟨fraction, hf⟩ : ∃ fraction : ℚ, fraction = (num % den : ℕ) / den := ⟨_, rfl⟩
  have number : (num : ℚ) / den = (num / den : ℕ) + fraction := by
    have whole : (num : ℚ) = den * (num / den : ℕ) + (num % den : ℕ) := by
      exact_mod_cast (Nat.div_add_mod num den).symm
    rw [hf, whole]
    field_simp
  have nonneg : 0 ≤ fraction := by rw [hf]; positivity
  have lt_one : fraction < 1 := by
    rw [hf, div_lt_one hd]
    exact_mod_cast Nat.mod_lt _ positive
  have below : 2 * (num % den) < den ↔ fraction < 1 / 2 := by
    rw [hf, div_lt_iff₀ hd, ← Nat.cast_lt (α := ℚ)]
    push_cast
    constructor <;> intro h <;> linarith
  have tie : 2 * (num % den) = den ↔ fraction = 1 / 2 := by
    rw [hf, div_eq_iff hd.ne', ← Nat.cast_inj (R := ℚ)]
    push_cast
    constructor <;> intro h <;> linarith
  rw [number]
  unfold roundQuotient
  split
  · rename_i down
    rw [below, tie] at down
    rw [sub_add_cancel_left, abs_neg, abs_of_nonneg nonneg]
    rcases down with lt | ⟨e, even⟩
    · exact ⟨lt.le, fun e => absurd e lt.ne⟩
    · exact ⟨e.le, fun _ => even⟩
  · rename_i up
    rw [below, tie, not_or, not_lt, not_and] at up
    have e : ((num / den + 1 : ℕ) : ℚ) - ((num / den : ℕ) + fraction) = 1 - fraction := by
      push_cast
      ring
    rw [e, abs_of_nonneg (by linarith)]
    refine ⟨by linarith, fun e => ?_⟩
    have odd := up.2 (by linarith)
    omega

/-- **A quotient is rounded to the nearest whole number**, and of two to the even one. -/
theorem preferred_roundQuotient (num : Nat) {den : Nat} (positive : 0 < den) (k : Nat) :
    Preferred (fun n => n) (num / den) (roundQuotient num den) k := by
  obtain ⟨near, even⟩ := roundQuotient_near num positive
  by_cases same : k = roundQuotient num den
  · exact ⟨by rw [same], fun _ => .inl same⟩
  · have apart := one_le_abs_sub_add_abs_sub same (num / den)
    exact ⟨by linarith, fun e => .inr (even (by linarith))⟩

/-! ## 4. The nearest double -/

/-- The grid that a quotient is rounded on. -/
def gridOf (num den : Nat) : Nat :=
  (num / den).log2 - 52

/-- The pattern that a quotient has on its grid, if patterns have no end. -/
def onGrid (num den : Nat) : Nat :=
  gridOf num den * hiddenBit + roundQuotient num (den <<< gridOf num den)

/-- A quotient fills the significand of its grid, unless the grid is the finest. -/
theorem hiddenBit_le_div (num den : Nat) (coarse : 0 < gridOf num den) :
    hiddenBit * 2 ^ gridOf num den ≤ num / den := by
  have high : (num / den).log2 = 52 + gridOf num den := by unfold gridOf at *; omega
  have nonzero : num / den ≠ 0 := by
    intro e
    rw [e, Nat.log2_zero] at high
    omega
  rw [show hiddenBit = 2 ^ 52 from rfl, ← pow_add, ← high]
  exact Nat.log2_self_le nonzero

section Grid

variable (num den : Nat)

/-- On its grid a quotient has a significand of 53 bits, or of less on the finest grid. -/
theorem onGrid_roundQuotient :
    OnGrid (gridOf num den) (roundQuotient num (den <<< gridOf num den)) := by
  have rounded : roundQuotient num (den <<< gridOf num den) = num / den / 2 ^ gridOf num den ∨
      roundQuotient num (den <<< gridOf num den) = num / den / 2 ^ gridOf num den + 1 := by
    rw [Nat.shiftLeft_eq, Nat.div_div_eq_div_mul]
    unfold roundQuotient
    split
    · exact .inl rfl
    · exact .inr rfl
  have lt : num / den / 2 ^ gridOf num den < 2 * hiddenBit := by
    refine Nat.div_lt_of_lt_mul (lt_of_lt_of_le Nat.lt_log2_self ?_)
    rw [show 2 * hiddenBit = 2 ^ 53 from rfl, ← pow_add]
    exact Nat.pow_le_pow_right (by decide) (by unfold gridOf; omega)
  refine ⟨by omega, ?_⟩
  rcases Nat.eq_zero_or_pos (gridOf num den) with finest | coarse
  · exact .inl finest
  · have le := (Nat.le_div_iff_mul_le (by positivity)).mpr (hiddenBit_le_div num den coarse)
    exact .inr (by omega)

/-- What lies on a finer grid than a quotient lies below the least number of 53 bits on its grid. -/
theorem units_lt_of_finer {shift significand : Nat} (grid : OnGrid shift significand)
    (finer : shift < gridOf num den) (lt : significand < 2 * hiddenBit) :
    units (shift * hiddenBit + significand) < hiddenBit * 2 ^ gridOf num den := by
  rw [units_of_onGrid grid]
  calc significand * 2 ^ shift
      < 2 * hiddenBit * 2 ^ shift := Nat.mul_lt_mul_of_pos_right lt (by positivity)
    _ = hiddenBit * 2 ^ (shift + 1) := by ring
    _ ≤ hiddenBit * 2 ^ gridOf num den :=
      Nat.mul_le_mul_left _ (Nat.pow_le_pow_right (by decide) finer)

variable {den} (positive : 0 < den)

include positive

/-- **No pattern is nearer to a quotient than the one on its grid**, and of two the even one is
taken. -/
theorem preferred_onGrid (p : Nat) :
    Preferred (fun p => units p) (num / den) (onGrid num den) p := by
  have hd : (0 : ℚ) < den := by exact_mod_cast positive
  obtain ⟨shift, significand, grid, lt, rfl⟩ := exists_onGrid p
  have own := onGrid_roundQuotient num den
  have even : hiddenBit % 2 = 0 := by decide
  simp only [Preferred, onGrid]
  generalize hs : gridOf num den = s at *
  generalize hr : roundQuotient num (den <<< s) = r at *
  have hp : (0 : ℚ) < 2 ^ s := by positivity
  -- on the grid, distances are those of whole numbers
  have scaled : ∀ k : ℚ, |k * 2 ^ s - num / den| = 2 ^ s * |k - num / (den <<< s : ℕ)| := by
    intro k
    rw [Nat.shiftLeft_eq, ← abs_of_pos hp, ← abs_mul, abs_of_pos hp]
    congr 1
    push_cast
    field_simp
  have finer : 0 < den <<< s := by
    rw [Nat.shiftLeft_eq]
    positivity
  have nearest := preferred_roundQuotient num finer
  rw [hr] at nearest
  have mine : (units (s * hiddenBit + r) : ℚ) = r * 2 ^ s := by exact_mod_cast units_of_onGrid own
  rw [mine]
  rcases Nat.lt_or_ge shift s with below | coarser
  · have low : (units (shift * hiddenBit + significand) : ℚ) < hiddenBit * 2 ^ s := by
      have := units_lt_of_finer num den grid (hs ▸ below) lt
      rw [hs] at this
      exact_mod_cast this
    have high : (hiddenBit * 2 ^ s : ℚ) ≤ num / den := by
      have := (Nat.le_div_iff_mul_le positive).mp
        (hiddenBit_le_div num den (by omega))
      rw [hs] at this
      rw [le_div_iff₀ hd]
      exact_mod_cast this
    have closer : |(r * 2 ^ s : ℚ) - num / den| ≤ |(hiddenBit : ℚ) * 2 ^ s - num / den| := by
      rw [scaled, scaled]
      exact mul_le_mul_of_nonneg_left (nearest hiddenBit).1 hp.le
    rw [abs_of_nonpos (a := (hiddenBit : ℚ) * 2 ^ s - num / den) (by linarith)] at closer
    rw [abs_of_nonpos (a := (units _ : ℚ) - num / den) (by linarith)]
    exact ⟨by linarith, fun e => absurd e (by linarith)⟩
  · -- a coarser grid is part of this one
    obtain ⟨more, rfl⟩ := Nat.exists_eq_add_of_le coarser
    have theirs : (units ((s + more) * hiddenBit + significand) : ℚ) =
        (significand * 2 ^ more : ℕ) * 2 ^ s := by
      rw [units_of_onGrid grid]
      push_cast
      ring
    obtain ⟨closest, tie⟩ := nearest (significand * 2 ^ more)
    rw [theirs, scaled, scaled]
    refine ⟨mul_le_mul_of_nonneg_left closest hp.le, fun e => ?_⟩
    rcases tie (mul_left_cancel₀ hp.ne' e) with same | r_even
    · refine .inl (units_strictMono.injective ?_)
      rw [units_of_onGrid grid, units_of_onGrid own, ← same]
      ring
    · exact .inr (by rw [Nat.add_mod, Nat.mul_mod, even, r_even, Nat.mul_zero])

end Grid

/-! ## 5. Correct rounding, in units -/

section Units

variable {q : ℚ} {pattern : Nat}

theorem abs_value_sub (p : Nat) (q : ℚ) :
    |value p - q| = |(units p : ℚ) - q * 2 ^ 1074| / 2 ^ 1074 := by
  have hp : (0 : ℚ) < 2 ^ 1074 := by positivity
  have e : value p - q = ((units p : ℚ) - q * 2 ^ 1074) / 2 ^ 1074 := by
    unfold value
    field_simp
  rw [e, abs_div, abs_of_pos hp]

/-- Distances may be compared in units. -/
theorem correctlyRounded_of_units (le : pattern ≤ infinity)
    (h : ∀ p ≤ infinity, Preferred (fun p => units p) (q * 2 ^ 1074) pattern p) :
    CorrectlyRounded q pattern := by
  refine ⟨le, fun p hp => ?_⟩
  obtain ⟨closer, tie⟩ := h p hp
  unfold Preferred
  rw [abs_value_sub, abs_value_sub, div_left_inj' (by positivity)]
  exact ⟨div_le_div_of_nonneg_right closer (by positivity), tie⟩

/-- What is less than half a unit is rounded to zero. -/
theorem correctlyRounded_zero (nonneg : 0 ≤ q) (small : q * 2 ^ 1074 < 1 / 2) :
    CorrectlyRounded q 0 := by
  refine correctlyRounded_of_units (Nat.zero_le _) fun p _ => ⟨?_, fun _ => .inr rfl⟩
  beta_reduce
  have zero : units 0 = 0 := by decide
  have nonneg' : 0 ≤ q * 2 ^ 1074 := by positivity
  generalize q * 2 ^ 1074 = x at *
  rcases Nat.eq_zero_or_pos p with rfl | positive
  · exact le_rfl
  · have one : (1 : ℚ) ≤ units p := by
      exact_mod_cast lt_of_le_of_lt (Nat.zero_le _) (units_strictMono positive)
    rw [zero, Nat.cast_zero, zero_sub, abs_neg, abs_of_nonneg nonneg', abs_of_nonneg (by linarith)]
    linarith

/-- What lies beyond infinity is rounded to it. -/
theorem correctlyRounded_infinity (beyond : (units infinity : ℚ) < q * 2 ^ 1074) :
    CorrectlyRounded q infinity := by
  refine correctlyRounded_of_units le_rfl fun p hp => ?_
  have le : (units p : ℚ) ≤ units infinity := by
    exact_mod_cast units_strictMono.monotone hp
  generalize q * 2 ^ 1074 = x at *
  simp only [Preferred]
  rw [abs_of_neg (by linarith), abs_of_neg (by linarith)]
  refine ⟨by linarith, fun e => .inl (units_strictMono.injective ?_)⟩
  exact_mod_cast show (units p : ℚ) = units infinity by linarith

/-- **A number has one correct rounding.** -/
theorem CorrectlyRounded.unique {pattern' : Nat} (h : CorrectlyRounded q pattern)
    (h' : CorrectlyRounded q pattern') : pattern = pattern' := by
  -- two that are equally near are even, and the pattern between them is nearer
  have apart : ∀ {a b : Nat}, CorrectlyRounded q a → CorrectlyRounded q b → ¬ a < b := by
    intro a b ha hb lt
    obtain ⟨closeA, tieA⟩ := ha.preferred b hb.le_infinity
    obtain ⟨closeB, tieB⟩ := hb.preferred a ha.le_infinity
    have e := le_antisymm closeA closeB
    have evenA := (tieA e).resolve_left lt.ne'
    have evenB := (tieB e.symm).resolve_left lt.ne
    have low := value_strictMono (Nat.lt_succ_self a)
    have high := value_strictMono (show a + 1 < b by omega)
    have closest := (ha.preferred (a + 1) (lt.trans_le hb.le_infinity)).1
    rcases abs_eq_abs.mp e with e | e
    · linarith
    · rw [abs_of_neg (a := value a - q) (by linarith)] at closest
      rcases abs_cases (value (a + 1) - q) with ⟨e', -⟩ | ⟨e', -⟩ <;> linarith
  exact Nat.le_antisymm (Nat.not_lt.mp (apart h' h)) (Nat.not_lt.mp (apart h h'))

end Units

theorem pow_lt_half_unit : (10 : ℚ) ^ (-331 : ℤ) * 2 ^ 1074 < 1 / 2 := by
  have lt : ((2 ^ 1074 * 2 : ℕ) : ℚ) < (10 ^ 331 : ℕ) := Nat.cast_lt.mpr (by decide +kernel)
  rw [Nat.cast_mul, Nat.cast_pow, Nat.cast_pow, Nat.cast_ofNat, Nat.cast_ofNat] at lt
  rw [zpow_neg, zpow_ofNat]
  have positive : (0 : ℚ) < 10 ^ 331 := pow_pos (by norm_num) _
  -- from here on the two powers are only numbers; they are too large to be computed
  generalize (2 : ℚ) ^ 1074 = unit at *
  generalize (10 : ℚ) ^ 331 = power at *
  rw [inv_mul_lt_iff₀ positive]
  linarith

theorem infinity_lt_pow : (units infinity : ℚ) < 10 ^ (310 : ℤ) * 2 ^ 1074 := by
  have infinite : units infinity = 2 ^ 52 * 2 ^ 2046 := by
    have grid : OnGrid 2046 hiddenBit := ⟨by decide, .inr le_rfl⟩
    rw [show infinity = 2046 * hiddenBit + hiddenBit by decide, units_of_onGrid grid,
      show hiddenBit = 2 ^ 52 from rfl]
  have lt : ((2 ^ 52 * 2 ^ 2046 : ℕ) : ℚ) < (10 ^ 310 * 2 ^ 1074 : ℕ) :=
    Nat.cast_lt.mpr (by decide +kernel)
  rw [Nat.cast_mul (10 ^ 310), Nat.cast_pow 10, Nat.cast_pow 2 1074, Nat.cast_ofNat,
    Nat.cast_ofNat] at lt
  rw [infinite, zpow_ofNat]
  exact lt

/-- **The double nearest to a quotient is its correct rounding.** -/
theorem correctlyRounded_nearest (num : Nat) {den : Nat} (positive : 0 < den) :
    CorrectlyRounded (num / den) (nearest num den) := by
  have preferred := preferred_onGrid (num <<< 1074) positive
  have inUnits : ∀ k : Nat, ((num <<< k : ℕ) : ℚ) / den = num / den * 2 ^ k := by
    intro k
    rw [Nat.shiftLeft_eq]
    push_cast
    ring
  rw [inUnits] at preferred
  show CorrectlyRounded _ (min infinity (onGrid (num <<< 1074) den))
  generalize onGrid (num <<< 1074) den = pattern at *
  rcases Nat.lt_or_ge infinity pattern with beyond | le
  · rw [min_eq_left beyond.le]
    have lt : (units infinity : ℚ) < units pattern := by exact_mod_cast units_strictMono beyond
    -- the pattern is nearer than infinity, so the number is beyond infinity
    refine correctlyRounded_infinity (lt_of_not_ge fun le => ?_)
    have closer := (preferred infinity).1
    generalize (num : ℚ) / den * 2 ^ 1074 = x at *
    rw [abs_of_nonneg (by linarith), abs_of_nonneg (by linarith)] at closer
    linarith
  · rw [min_eq_right le]
    exact correctlyRounded_of_units le fun p _ => preferred p

end Reckoner.Binary64

namespace Reckoner.Decimal

/-! ## 6. Decimals -/

/-- The number that a decimal stands for. -/
def value (d : Decimal) : ℚ :=
  d.digits * 10 ^ d.exponent

theorem value_nonneg (d : Decimal) : 0 ≤ d.value := by
  unfold value
  positivity

/-- A number has the size that the count of its digits says. -/
theorem bounds_of_toDigits {n : Nat} (nonzero : n ≠ 0) :
    10 ^ ((Nat.toDigits 10 n).length - 1) ≤ n ∧ n < 10 ^ (Nat.toDigits 10 n).length ∧
      0 < (Nat.toDigits 10 n).length := by
  have positive : 0 < (Nat.toDigits 10 n).length := Nat.length_toDigits_pos
  refine ⟨?_, (Nat.length_toDigits_le_iff (by decide) positive).mp le_rfl, positive⟩
  rcases Nat.eq_zero_or_pos ((Nat.toDigits 10 n).length - 1) with e | more
  · rw [e]
    exact Nat.pos_of_ne_zero nonzero
  · refine Nat.not_lt.mp fun lt => ?_
    have := (Nat.length_toDigits_le_iff (by decide) more).mpr lt
    omega

/-- The places of a decimal before its point, or behind it if there are none, give its size. -/
theorem value_bounds {d : Decimal} (nonzero : d.digits ≠ 0) :
    (10 : ℚ) ^ ((Nat.toDigits 10 d.digits).length + d.exponent - 1) ≤ d.value ∧
      d.value < 10 ^ ((Nat.toDigits 10 d.digits).length + d.exponent) := by
  obtain ⟨low, high, positive⟩ := bounds_of_toDigits nonzero
  have ten : (10 : ℚ) ≠ 0 := by norm_num
  have power : (0 : ℚ) < 10 ^ d.exponent := by positivity
  unfold value
  constructor
  · have e : ((Nat.toDigits 10 d.digits).length + d.exponent - 1 : ℤ) =
        ((Nat.toDigits 10 d.digits).length - 1 : ℕ) + d.exponent := by omega
    rw [e, zpow_add₀ ten, zpow_natCast]
    exact mul_le_mul_of_nonneg_right (by exact_mod_cast low) power.le
  · rw [zpow_add₀ ten, zpow_natCast]
    exact mul_lt_mul_of_pos_right (by exact_mod_cast high) power

/-- A decimal is a quotient of natural numbers. -/
theorem value_eq_div (d : Decimal) :
    d.value = ((d.digits * Nat.pow 10 d.exponent.toNat : ℕ) : ℚ) /
      (Nat.pow 10 (-d.exponent).toNat : ℕ) := by
  simp only [Nat.pow_eq]
  push_cast
  unfold value
  rw [mul_div_assoc]
  congr 1
  rw [← zpow_natCast, ← zpow_natCast, ← zpow_sub₀ (by norm_num)]
  congr 1
  omega

/-- **The double nearest to a decimal is its correct rounding.** -/
theorem correctlyRounded (d : Decimal) : Binary64.CorrectlyRounded d.value d.nearest := by
  have ten : (1 : ℚ) ≤ 10 := by norm_num
  have unit : (0 : ℚ) < 2 ^ 1074 := by positivity
  unfold nearest
  dsimp only
  split
  · rename_i tiny
    refine Binary64.correctlyRounded_zero d.value_nonneg ?_
    by_cases zero : d.digits = 0
    · rw [value, zero]
      norm_num
    · have small := tiny.resolve_left zero
      have below : d.value < 10 ^ (-331 : ℤ) :=
        (value_bounds zero).2.trans_le (zpow_le_zpow_right₀ ten (by omega))
      exact (mul_lt_mul_of_pos_right below unit).trans Binary64.pow_lt_half_unit
  · rename_i notTiny
    split
    · rename_i large
      have nonzero : d.digits ≠ 0 := fun zero => notTiny (.inl zero)
      refine Binary64.correctlyRounded_infinity ?_
      have above : (10 : ℚ) ^ (310 : ℤ) ≤ d.value :=
        (zpow_le_zpow_right₀ ten (by omega)).trans (value_bounds nonzero).1
      exact Binary64.infinity_lt_pow.trans_le (mul_le_mul_of_nonneg_right above unit.le)
    · rw [value_eq_div]
      exact Binary64.correctlyRounded_nearest _ (Nat.pow_pos (by decide))

end Reckoner.Decimal
