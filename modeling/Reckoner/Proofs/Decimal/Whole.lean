import Reckoner.Proofs.Decimal.Shortest

/-!
# Whole numbers are shown by their digits

A whole number below `10 ^ 15` is shown by its digits, any other number by its shortest decimal, laid
out without an exponent. **The shortest decimal of a whole number are its digits**
(`Number.decimalText_whole`), so there is one rule for all numbers (`Number.text_eq_decimalText`), and
what is shown of a finite double is a literal for the correct rounding of its value
(`Number.exists_literal_text`). Only a zero with a sign makes a difference: it is shown without one.

The double itself lies on the grid of the whole numbers, so the search for the shortest decimal never
comes to a finer one (`Decimal.Basin.le_search_exponent`), and the decimal it finds is a whole
number. Below `2 ^ 53` each whole number is a double, so only one of them is rounded to a given double
(`Binary64.CorrectlyRounded.eq_of_whole`): what is found is the number itself, and only zeros at its end
are said by the exponent.
-/

namespace Reckoner

namespace Binary64

/-! ## 1. Whole numbers among the doubles -/

theorem value_zero : value 0 = 0 := by
  rw [value, units, if_pos (by decide), Nat.cast_zero, zero_div]

/-- Only the pattern zero stands for zero. -/
theorem eq_zero_iff {n p : Nat} (whole : value p = n) : p = 0 ↔ n = 0 := by
  constructor
  · rintro rfl
    exact_mod_cast whole.symm.trans value_zero
  · rintro rfl
    exact value_strictMono.injective (whole.trans (Nat.cast_zero.trans value_zero.symm))

/-- **A whole number below `2 ^ 53` is a double.** -/
theorem exists_value_eq {n : Nat} (small : n < 2 ^ 53) : ∃ p ≤ infinity, value p = n := by
  rcases Nat.eq_zero_or_pos n with rfl | positive
  · exact ⟨0, Nat.zero_le _, by rw [value_zero, Nat.cast_zero]⟩
  · have leading : n.log2 ≤ 52 := by
      have := (Nat.log2_lt positive.ne').mpr small
      omega
    obtain ⟨shift, places⟩ := Nat.exists_eq_add_of_le leading
    have hidden : hiddenBit = 2 ^ 52 := rfl
    have low : hiddenBit ≤ n * 2 ^ shift := by
      calc hiddenBit = 2 ^ n.log2 * 2 ^ shift := by rw [← pow_add, ← places, hidden]
        _ ≤ n * 2 ^ shift := Nat.mul_le_mul_right _ (Nat.log2_self_le positive.ne')
    have high : n * 2 ^ shift < 2 * hiddenBit := by
      calc n * 2 ^ shift < 2 ^ (n.log2 + 1) * 2 ^ shift :=
            Nat.mul_lt_mul_of_pos_right Nat.lt_log2_self (by positivity)
        _ = 2 * hiddenBit := by
            rw [pow_succ, mul_right_comm, ← pow_add, ← places, hidden, mul_comm]
    have grid : OnGrid (1074 - shift) (n * 2 ^ shift) := ⟨high.le, .inr low⟩
    refine ⟨(1074 - shift) * hiddenBit + n * 2 ^ shift, ?_, ?_⟩
    · calc (1074 - shift) * hiddenBit + n * 2 ^ shift
          ≤ 1074 * hiddenBit + 2 * hiddenBit :=
            Nat.add_le_add (Nat.mul_le_mul_right _ (Nat.sub_le _ _)) high.le
        _ ≤ infinity := by decide
    · have whole : n * 2 ^ shift * 2 ^ (1074 - shift) = n * 2 ^ 1074 := by
        rw [mul_assoc, ← pow_add, Nat.add_sub_cancel' (by omega)]
      rw [value, units_of_onGrid grid, whole, Nat.cast_mul, Nat.cast_pow, Nat.cast_ofNat]
      exact mul_div_cancel_right₀ _ (by positivity)

/-- **Of the whole numbers only one is rounded to a whole double**, while the next one is a double
too. -/
theorem CorrectlyRounded.eq_of_whole {m n p : Nat} (h : CorrectlyRounded m p) (whole : value p = n)
    (small : n + 1 < 2 ^ 53) : m = n := by
  rcases Nat.lt_trichotomy m n with below | same | above
  · obtain ⟨p', le, previous⟩ := exists_value_eq (show n - 1 < 2 ^ 53 by omega)
    have closest := (h.preferred p' le).1
    have lt : (m : ℚ) ≤ (n - 1 : Nat) := by exact_mod_cast Nat.le_sub_one_of_lt below
    have step : ((n - 1 : Nat) : ℚ) = n - 1 := Nat.cast_pred (by omega)
    rw [whole, previous, abs_of_nonneg (by linarith), abs_of_nonneg (by linarith)] at closest
    linarith
  · exact same
  · obtain ⟨p', le, next⟩ := exists_value_eq small
    have closest := (h.preferred p' le).1
    have lt : ((n + 1 : Nat) : ℚ) ≤ m := by exact_mod_cast above
    have step : ((n + 1 : Nat) : ℚ) = n + 1 := Nat.cast_succ n
    rw [whole, next, abs_of_nonpos (by linarith), abs_of_nonpos (by linarith)] at closest
    linarith

end Binary64

namespace Decimal

/-! ## 2. The search among whole numbers -/

section Search

variable {b : Basin} {n place : Nat}

/-- A grid that holds the double has a point for it. -/
theorem Basin.exists_point? (tie : Tie) (own : b.contains b.value = true)
    (onGrid : b.value = n * (2 * 10 ^ place)) : ∃ digits, b.point? tie place = some digits := by
  have step : 0 < 2 * 10 ^ place := by positivity
  have below : b.value / (2 * 10 ^ place) = n := by rw [onGrid, Nat.mul_div_cancel _ step]
  unfold Basin.point?
  simp only [Nat.pow_eq, below, ← onGrid, own]
  split
  · split
    · exact ⟨_, rfl⟩
    · split <;> exact ⟨_, rfl⟩
  · exact ⟨_, rfl⟩
  · exact ⟨_, rfl⟩
  · rename_i outside _
    cases outside

/-- The search does not go on to a finer grid than one that holds the double. -/
theorem Basin.le_search_exponent {tie : Tie} {digits : Nat}
    (found : b.point? tie (place + 1) = some digits) (finer : Nat) :
    (place : Int) + 1 - 1074 ≤ (b.search tie (place + 1 + finer)).exponent := by
  induction finer with
  | zero => rw [Nat.add_zero, Basin.search, found]
  | succ finer ih =>
    rw [← Nat.add_assoc, Basin.search]
    split
    · simp only
      omega
    · exact ih

end Search

/-- A whole double lies on the grid of the whole numbers. The exponent is a variable in the proof, so
that nothing computes the power. -/
theorem Basin.value_whole {n p k : Nat} (hk : 1074 = k) (whole : Binary64.value p = n) :
    (Basin.ofPattern p).value = n * (2 * 10 ^ k) := by
  obtain ⟨scale, positive, halves, scaled⟩ := ofPattern_scaled p hk
  have units : (Binary64.units p : ℚ) = n * 2 ^ k := by
    rw [← whole, Binary64.value, hk, div_mul_cancel₀ _ (by positivity)]
  have value : ((Basin.ofPattern p).value : ℚ) = 2 * (n * 2 ^ k) * scale := by
    rw [scaled]
    push_cast
    rw [units]
  have onGrid := halves (n * (2 * 10 ^ k))
  push_cast at onGrid
  rw [mul_div_cancel_right₀ _ (by positivity), ← value] at onGrid
  exact_mod_cast onGrid.symm

/-- The search for the shortest decimal of a whole double starts no finer than with whole numbers. -/
theorem Basin.le_start {n p : Nat} (whole : Binary64.value p = n) (nonzero : n ≠ 0)
    (own : (Basin.ofPattern p).contains (Basin.ofPattern p).value = true) :
    1074 ≤ (Basin.ofPattern p).start := by
  have le : (Basin.ofPattern p).value ≤ (Basin.ofPattern p).high := by
    unfold contains at own
    split at own
    · simp only [Bool.and_eq_true, decide_eq_true_eq] at own
      exact own.2
    · simp only [Bool.and_eq_true, decide_eq_true_eq] at own
      exact own.2.le
  have large : 2 ^ 3562 ≤ (Basin.ofPattern p).high := by
    calc 2 ^ 3562 ≤ 2 * 10 ^ 1074 := by decide +kernel
      _ ≤ n * (2 * 10 ^ 1074) := Nat.le_mul_of_pos_left _ (Nat.pos_of_ne_zero nonzero)
      _ ≤ (Basin.ofPattern p).high := by rw [← value_whole rfl whole]; exact le
  have log : ∀ k, 2 ^ k ≤ (Basin.ofPattern p).high → k ≤ (Basin.ofPattern p).high.log2 := fun k le =>
    (Nat.le_log2 (lt_of_lt_of_le (Nat.two_pow_pos k) le).ne').mpr le
  have := log 3562 large
  unfold start
  omega

/-- **The shortest decimal of a whole double is the number itself**, with zeros at its end said by the
exponent. -/
theorem shortest_whole (tie : Tie) {n p : Nat} (whole : Binary64.value p = n) (nonzero : n ≠ 0)
    (small : n + 1 < 2 ^ 53) (le : p ≤ Binary64.infinity) :
    ∃ m zeros : Nat, shortest tie p = ⟨m, zeros⟩ ∧ m * 10 ^ zeros = n := by
  have nonzero' : p ≠ 0 := (Binary64.eq_zero_iff whole).not.mpr nonzero
  have own := Basin.contains_value nonzero'
  have point : ∃ digits, (Basin.ofPattern p).point? tie (1073 + 1) = some digits :=
    Basin.exists_point? tie own (Basin.value_whole rfl whole)
  obtain ⟨digits, found⟩ := point
  obtain ⟨finer, start⟩ := Nat.exists_eq_add_of_le (Basin.le_start whole nonzero own)
  have exponent : 0 ≤ (shortest tie p).exponent := by
    have := Basin.le_search_exponent found finer
    rwa [← start] at this
  have rounded := correctlyRounded_shortest tie nonzero' le
  -- from here on the decimal is any one with these two properties
  generalize shortest tie p = d at *
  obtain ⟨m, e⟩ := d
  obtain ⟨zeros, e_eq⟩ := Int.eq_ofNat_of_zero_le exponent
  subst e_eq
  have value : Decimal.value ⟨m, zeros⟩ = ((m * 10 ^ zeros : Nat) : ℚ) := by
    rw [Decimal.value, zpow_natCast]
    push_cast
    rfl
  rw [value] at rounded
  exact ⟨m, zeros, rfl, rounded.eq_of_whole whole small⟩

/-! ## 3. Digits -/

/-- Zeros behind the digits of a number multiply it by ten each. -/
theorem toDigits_mul_pow {m : Nat} (positive : 0 < m) (zeros : Nat) :
    Nat.toDigits 10 m ++ List.replicate zeros '0' = Nat.toDigits 10 (m * 10 ^ zeros) := by
  induction zeros with
  | zero => simp
  | succ zeros ih =>
    have next : m * 10 ^ (zeros + 1) = 10 * (m * 10 ^ zeros) + 0 := by ring
    have zero : Nat.toDigits 10 0 = ['0'] := rfl
    rw [List.replicate_succ', ← List.append_assoc, ih, next, ← zero]
    exact Nat.toDigits_append_toDigits (by decide) (by positivity) (by decide)

/-- A decimal with a whole value is laid out as its digits. -/
theorem positional_whole {m zeros : Nat} (positive : 0 < m) :
    positional ⟨m, zeros⟩ = Nat.toDigits 10 (m * 10 ^ zeros) := by
  have places : (-(zeros : Int)).toNat = 0 := by omega
  unfold positional
  simp only [places, if_true, Int.toNat_natCast]
  exact toDigits_mul_pow positive zeros

end Decimal

namespace Number

/-! ## 4. The text of a number -/

/-- The numbers that are shown by their digits. -/
theorem whole?_eq_some_iff {x : Binary64} {n : Nat} : whole? x = some n ↔
    x.isFinite = true ∧ Binary64.value x.magnitude = n ∧ n < 10 ^ 15 := by
  obtain ⟨k, hk⟩ : ∃ k, 1074 = k := ⟨_, rfl⟩
  -- the exponent is a variable from here on, so that nothing computes the power
  have scaled : (Binary64.units x.magnitude : ℚ) / 2 ^ k = n ↔
      Binary64.units x.magnitude = n * 2 ^ k := by
    rw [div_eq_iff (pow_ne_zero _ two_ne_zero)]
    exact_mod_cast Iff.rfl
  unfold whole? Binary64.value
  rw [hk, scaled]
  simp only [Option.ite_none_right_eq_some, Bool.and_eq_true, beq_iff_eq, decide_eq_true_eq,
    Option.some.injEq]
  constructor
  · rintro ⟨⟨⟨finite, exact⟩, small⟩, rfl⟩
    exact ⟨finite, (Nat.div_mul_cancel (Nat.dvd_of_mod_eq_zero exact)).symm, small⟩
  · rintro ⟨finite, whole, small⟩
    have one : Binary64.units x.magnitude / Nat.pow 2 k = n := by
      rw [whole, Nat.pow_eq, Nat.mul_div_cancel n (Nat.two_pow_pos k)]
    refine ⟨⟨⟨finite, ?_⟩, one ▸ small⟩, one⟩
    rw [whole, Nat.pow_eq, Nat.mul_mod_left]

/-- **The shortest decimal of a whole number below `10 ^ 15` is its digits.** -/
theorem decimalText_whole {x : Binary64} {n : Nat} (finite : x.isFinite = true)
    (whole : Binary64.value x.magnitude = n) (small : n < 10 ^ 15) :
    (decimalText x).toList = Decimal.putSign x.isNegative (Nat.toDigits 10 n) := by
  have lt : x.magnitude < Binary64.infinity := of_decide_eq_true finite
  rw [toList_decimalText finite]
  split
  · rename_i zero
    rw [(Binary64.eq_zero_iff whole).mp zero]
    rfl
  · rename_i nonzero
    have nonzero' : n ≠ 0 := (Binary64.eq_zero_iff whole).not.mp nonzero
    have exact : n + 1 < 2 ^ 53 := Nat.lt_of_le_of_lt small (by decide)
    obtain ⟨m, zeros, shortest, rfl⟩ := Decimal.shortest_whole .up whole nonzero' exact lt.le
    have positive : 0 < m := Nat.pos_of_ne_zero fun e => nonzero' (by rw [e, Nat.zero_mul])
    rw [shortest, Decimal.positional_whole positive]

/-- **Digits and shortest decimal are the same text**, but for a zero with a sign. -/
theorem text_eq_decimalText {x : Binary64} (signless : x.isZero = true → x.isNegative = false) :
    text x = decimalText x := by
  unfold text
  cases found : whole? x with
  | none => rfl
  | some n =>
    obtain ⟨finite, whole, small⟩ := whole?_eq_some_iff.mp found
    have sign : (x.isNegative && n != 0) = x.isNegative := by
      by_cases zero : n = 0
      · have isZero : x.isZero = true := beq_iff_eq.mpr ((Binary64.eq_zero_iff whole).mpr zero)
        rw [signless isZero, Bool.false_and]
      · rw [bne_iff_ne.mpr zero, Bool.and_true]
    refine String.toList_injective ?_
    rw [decimalText_whole finite whole small, String.toList_ofList, sign]
    rfl

/-- Zero is shown without a sign. -/
theorem text_zero {x : Binary64} (zero : x.isZero = true) : text x = "0" := by
  have pattern : x.magnitude = 0 := beq_iff_eq.mp zero
  have value : Binary64.value x.magnitude = (0 : Nat) := by
    rw [pattern, Binary64.value_zero, Nat.cast_zero]
  have finite : x.isFinite = true := by
    unfold Binary64.isFinite
    rw [pattern]
    decide
  unfold text
  rw [whole?_eq_some_iff.mpr ⟨finite, value, by positivity⟩]
  simp

/-- A negative number is shown with a sign, but zero never is. -/
def hasSign (x : Binary64) : Bool :=
  x.isNegative && !x.isZero

/-- The text of a finite double as it is written. -/
theorem toList_text {x : Binary64} (finite : x.isFinite = true) :
    (text x).toList = Decimal.putSign (hasSign x)
      (if x.magnitude = 0 then ['0'] else (Decimal.shortest .up x.magnitude).positional) := by
  cases zero : x.isZero with
  | true =>
    rw [text_zero zero, if_pos (beq_iff_eq.mp zero), hasSign, zero, Bool.not_true, Bool.and_false]
    rfl
  | false =>
    rw [text_eq_decimalText (by simp [zero]), toList_decimalText finite, hasSign, zero,
      Bool.not_false, Bool.and_true]

/-- **The text of a finite double is a literal that is rounded to its pattern**, with a sign if the
double is negative and not zero. -/
theorem exists_literal_text {x : Binary64} (finite : x.isFinite = true) :
    ∃ digits q, Literal digits q ∧ Binary64.CorrectlyRounded q x.magnitude ∧
      (text x).toList = Decimal.putSign (hasSign x) digits := by
  have lt : x.magnitude < Binary64.infinity := of_decide_eq_true finite
  rw [toList_text finite]
  split
  · rename_i zero
    have nothing : ((Decimal.ofDigits ['0'] : Nat) : ℚ) = 0 := Nat.cast_eq_zero.mpr rfl
    refine ⟨['0'], _, .whole (by simp) (by simp), ?_, rfl⟩
    rw [zero, nothing]
    exact Binary64.correctlyRounded_zero le_rfl (by norm_num)
  · rename_i nonzero
    exact ⟨_, _, Decimal.literal_positional _,
      Decimal.correctlyRounded_shortest .up nonzero lt.le, rfl⟩

/-- The text of a finite double without a sign is a literal that is rounded to it. -/
theorem literal_text {x : Binary64} (finite : x.isFinite = true) (unsigned : x.isNegative = false) :
    ∃ q, Literal (text x).toList q ∧ Binary64.CorrectlyRounded q x.magnitude := by
  obtain ⟨digits, q, literal, rounded, shown⟩ := exists_literal_text finite
  have plain : (text x).toList = digits := by
    rw [shown, hasSign, unsigned]
    rfl
  exact ⟨q, plain ▸ literal, rounded⟩

end Number

end Reckoner
