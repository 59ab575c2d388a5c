import Reckoner.Number
import Reckoner.Proofs.Lexeme.Literal

/-!
# What is shown is read back

A double is shown by a decimal of its basin, laid out without an exponent.

* **What the basin of a double contains is rounded to it** (`Decimal.Basin.correctlyRounded`): it lies
  no further from the double than half-way to its neighbours, and half-way only if the double is even.
* The search for the shortest decimal ends in the basin (`Decimal.Basin.search_contained`), on whatever
  grid that is, so **the decimal it finds is rounded to the double** (`Decimal.correctlyRounded_shortest`).
* A decimal laid out without an exponent is a literal of its value (`Decimal.literal_positional`).

So the shortest decimal of a finite double, as it is written, is a literal for it.
-/

namespace Reckoner

namespace Binary64

/-! ## 1. Between the neighbours -/

/-- **What lies between half-way to the neighbours of a double is rounded to it**; what lies half-way
only if the double is even. -/
theorem correctlyRounded_of_between {q : ℚ} {pattern : Nat} (le : pattern ≤ infinity)
    (low : (units (pattern - 1) + units pattern : ℚ) ≤ 2 * (q * 2 ^ 1074))
    (high : 2 * (q * 2 ^ 1074) ≤ (units pattern + units (pattern + 1) : ℚ))
    (inside : pattern % 2 = 0 ∨ ((units (pattern - 1) + units pattern : ℚ) < 2 * (q * 2 ^ 1074) ∧
      2 * (q * 2 ^ 1074) < (units pattern + units (pattern + 1) : ℚ))) :
    CorrectlyRounded q pattern := by
  refine correctlyRounded_of_units le fun p _ => ?_
  generalize q * 2 ^ 1074 = x at *
  simp only [Preferred]
  rcases Nat.lt_trichotomy p pattern with below | rfl | above
  · have lt : (units p : ℚ) < units pattern := by exact_mod_cast units_strictMono below
    have next : (units p : ℚ) ≤ units (pattern - 1) := by
      exact_mod_cast units_strictMono.monotone (show p ≤ pattern - 1 by omega)
    rw [abs_of_neg (a := (units p : ℚ) - x) (by linarith)]
    refine ⟨abs_le.mpr ⟨by linarith, by linarith⟩, fun tie => .inr ?_⟩
    rcases inside with even | ⟨strict, -⟩
    · exact even
    · rcases abs_cases ((units pattern : ℚ) - x) with ⟨e, -⟩ | ⟨e, -⟩ <;> linarith
  · exact ⟨le_rfl, fun _ => .inl rfl⟩
  · have lt : (units pattern : ℚ) < units p := by exact_mod_cast units_strictMono above
    have next : (units (pattern + 1) : ℚ) ≤ units p := by
      exact_mod_cast units_strictMono.monotone (show pattern + 1 ≤ p by omega)
    rw [abs_of_pos (a := (units p : ℚ) - x) (by linarith)]
    refine ⟨abs_le.mpr ⟨by linarith, by linarith⟩, fun tie => .inr ?_⟩
    rcases inside with even | ⟨-, strict⟩
    · exact even
    · rcases abs_cases ((units pattern : ℚ) - x) with ⟨e, -⟩ | ⟨e, -⟩ <;> linarith

end Binary64

namespace Decimal

/-! ## 2. Basins -/

/-- A number of halves of a power of ten is a number of powers of two, with a power of five. -/
theorem halves_eq (x k : Nat) :
    (x : ℚ) = 2 * ((x / (2 * 10 ^ k) : ℚ) * 2 ^ k) * (Nat.pow 5 k : Nat) := by
  have ten : (10 : ℚ) ^ k = 2 ^ k * 5 ^ k := by
    rw [← mul_pow]
    norm_num only
  rw [Nat.pow_eq, Nat.cast_pow, Nat.cast_ofNat, ten]
  field_simp

theorem pow_five_pos (k : Nat) : 0 < Nat.pow 5 k :=
  Nat.pow_pos (by decide)

/-- What is between the bounds of a basin may be said in any unit. -/
theorem Basin.contains_iff {low value high scale x : Nat} {closed : Bool} {y : ℚ}
    (positive : 0 < scale) (hx : (x : ℚ) = y * scale) :
    (Basin.mk (low * scale) value (high * scale) closed).contains x = true ↔
      if closed then low ≤ y ∧ y ≤ high else low < y ∧ y < high := by
  have hs : (0 : ℚ) < scale := by exact_mod_cast positive
  have above : ∀ a : Nat, (a * scale ≤ x ↔ (a : ℚ) ≤ y) ∧ (a * scale < x ↔ (a : ℚ) < y) := by
    intro a
    rw [← Nat.cast_le (α := ℚ), ← Nat.cast_lt (α := ℚ), Nat.cast_mul, hx]
    exact ⟨mul_le_mul_iff_left₀ hs, mul_lt_mul_iff_left₀ hs⟩
  have below : ∀ a : Nat, (x ≤ a * scale ↔ y ≤ (a : ℚ)) ∧ (x < a * scale ↔ y < (a : ℚ)) := by
    intro a
    rw [← Nat.cast_le (α := ℚ), ← Nat.cast_lt (α := ℚ), Nat.cast_mul, hx]
    exact ⟨mul_le_mul_iff_left₀ hs, mul_lt_mul_iff_left₀ hs⟩
  unfold Basin.contains
  cases closed <;> simp [above, below]

/-- The bounds of a basin are numbers of units, in a scale in which halves of `10⁻¹⁰⁷⁴` are whole. The
exponent is a variable in the proof, so that nothing computes the power. -/
theorem Basin.ofPattern_scaled (pattern : Nat) {k : Nat} (hk : 1074 = k) : ∃ scale : Nat,
    0 < scale ∧ (∀ x : Nat, (x : ℚ) = 2 * ((x / (2 * 10 ^ k) : ℚ) * 2 ^ k) * scale) ∧
      Basin.ofPattern pattern =
        ⟨(Binary64.units (pattern - 1) + Binary64.units pattern) * scale,
          2 * Binary64.units pattern * scale,
          (Binary64.units pattern + Binary64.units (pattern + 1)) * scale, pattern % 2 == 0⟩ := by
  refine ⟨_, pow_five_pos k, fun x => halves_eq x k, ?_⟩
  unfold Basin.ofPattern
  rw [hk]

/-- **What the basin of a double contains is rounded to it.** -/
theorem Basin.correctlyRounded {pattern x : Nat} (le : pattern ≤ Binary64.infinity)
    (h : (Basin.ofPattern pattern).contains x = true) :
    Binary64.CorrectlyRounded (x / (2 * 10 ^ 1074)) pattern := by
  obtain ⟨scale, positive, halves, scaled⟩ := ofPattern_scaled pattern rfl
  rw [scaled, contains_iff positive (halves x), Nat.cast_add, Nat.cast_add] at h
  split at h
  · rename_i closed
    have even : pattern % 2 = 0 := by simpa using closed
    exact Binary64.correctlyRounded_of_between le h.1 h.2 (.inl even)
  · exact Binary64.correctlyRounded_of_between le h.1.le h.2.le (.inr h)

/-- A double lies in its own basin. -/
theorem Basin.contains_value {pattern : Nat} (nonzero : pattern ≠ 0) :
    (Basin.ofPattern pattern).contains (Basin.ofPattern pattern).value = true := by
  obtain ⟨scale, positive, -, scaled⟩ := ofPattern_scaled pattern rfl
  have own : ((2 * Binary64.units pattern * scale : Nat) : ℚ) =
      ((2 * Binary64.units pattern : Nat) : ℚ) * scale := Nat.cast_mul _ _
  have low : Binary64.units (pattern - 1) < Binary64.units pattern :=
    Binary64.units_strictMono (by omega)
  have high : Binary64.units pattern < Binary64.units (pattern + 1) :=
    Binary64.units_strictMono (Nat.lt_succ_self pattern)
  rw [scaled, contains_iff positive own]
  simp only [Nat.cast_le, Nat.cast_lt]
  split
  · exact ⟨by omega, by omega⟩
  · exact ⟨by omega, by omega⟩

/-! ## 3. The search -/

section Search

variable {b : Basin}

/-- A point that stands for the double lies in its basin. -/
theorem Basin.contains_of_point? {tie : Tie} {j digits : Nat} (h : b.point? tie j = some digits) :
    b.contains (digits * (2 * 10 ^ j)) = true := by
  simp only [Basin.point?, Nat.pow_eq] at h
  split at h
  · rename_i low high
    split at h
    · cases h; exact low
    · split at h
      · cases h; exact low
      · cases h; exact high
  · rename_i low _
    cases h; exact low
  · rename_i _ high
    cases h; exact high
  · cases h

/-- **The search ends in the basin**, on one of its grids, if the double itself is there. -/
theorem Basin.search_contained (tie : Tie) (own : b.contains b.value = true)
    (even : b.value % 2 = 0) (j : Nat) :
    ∃ place : Nat, (b.search tie j).exponent = place - 1074 ∧
      b.contains ((b.search tie j).digits * (2 * 10 ^ place)) = true := by
  induction j with
  | zero =>
    refine ⟨0, rfl, ?_⟩
    have whole : b.value / 2 * (2 * 10 ^ 0) = b.value := by omega
    rwa [Basin.search, whole]
  | succ j ih =>
    rw [Basin.search]
    split
    · rename_i digits found
      exact ⟨j + 1, by push_cast; rfl, contains_of_point? found⟩
    · exact ih

end Search

/-- The number of a decimal on one of the grids of the search. -/
theorem value_on_grid {d : Decimal} {place k : Nat} (h : d.exponent = place - k) :
    d.value = ((d.digits * (2 * 10 ^ place) : Nat) : ℚ) / (2 * 10 ^ k) := by
  rw [value, h, zpow_sub₀ (by norm_num), zpow_natCast, zpow_natCast]
  push_cast
  field_simp

/-- **The shortest decimal of a double is rounded to it.** -/
theorem correctlyRounded_shortest (tie : Tie) {pattern : Nat} (nonzero : pattern ≠ 0)
    (le : pattern ≤ Binary64.infinity) :
    Binary64.CorrectlyRounded (shortest tie pattern).value pattern := by
  have even : (Basin.ofPattern pattern).value % 2 = 0 := by
    obtain ⟨scale, -, -, scaled⟩ := Basin.ofPattern_scaled pattern rfl
    rw [scaled, Nat.mul_assoc]
    exact Nat.mul_mod_right 2 _
  obtain ⟨place, exponent, contained⟩ := Basin.search_contained tie
    (Basin.contains_value nonzero) even (Basin.ofPattern pattern).start
  have value : (shortest tie pattern).value = _ := value_on_grid exponent
  rw [value]
  exact Basin.correctlyRounded le contained

/-! ## 4. Layout -/

/-- The digits of a number stand for it. -/
theorem ofDigits_toDigits (n : Nat) : ofDigits (Nat.toDigits 10 n) = n := by
  have h := Nat.ofDigitChars_ten_toDigits (n := n)
  rwa [Nat.ofDigitChars_eq_foldl] at h

theorem ofDigits_zeros (k : Nat) : ofDigits (List.replicate k '0') = 0 := by
  have h := @Nat.ofDigitChars_replicate_zero 10 0 k
  rwa [Nat.ofDigitChars_eq_foldl, Nat.mul_zero] at h

theorem isDigit_toDigits {n : Nat} {c : Char} (h : c ∈ Nat.toDigits 10 n) : c.isDigit = true :=
  Nat.isDigit_of_mem_toDigits (by decide) (by decide) h

theorem isDigit_zeros {k : Nat} {c : Char} (h : c ∈ List.replicate k '0') : c.isDigit = true := by
  rw [List.eq_of_mem_replicate h]
  rfl

section Layout

variable {d : Decimal} {ds fs : List Char}

/-- A decimal with a whole value is its digits with zeros behind them. -/
theorem value_whole (stands : ofDigits ds = d.digits) (whole : (-d.exponent).toNat = 0) :
    d.value = ofDigits (ds ++ List.replicate d.exponent.toNat '0') := by
  have exponent : d.exponent = d.exponent.toNat := by omega
  rw [ofDigits_append, stands, ofDigits_zeros, List.length_replicate, Decimal.value, exponent,
    zpow_natCast, Int.toNat_natCast]
  push_cast
  ring

/-- The digits of a decimal with the point where its exponent says are a literal of its value, if there
are digits on both sides of the point. -/
theorem literal_of_parts (stands : ofDigits (ds ++ fs) = d.digits)
    (fraction : (-d.exponent).toNat ≠ 0) (count : fs.length = (-d.exponent).toNat)
    (nonempty : ds ≠ []) (digits : ∀ c ∈ ds, c.isDigit = true) (digits' : ∀ c ∈ fs, c.isDigit = true) :
    Literal (ds ++ '.' :: fs) d.value := by
  have nonempty' : fs ≠ [] := fun e => fraction (by rw [← count, e, List.length_nil])
  have exponent : (-fs.length : Int) = d.exponent := by omega
  have parts : ofParts ds fs = d := by rw [ofParts, stands, exponent]
  rw [← parts, value_ofParts]
  exact .fraction nonempty digits nonempty' digits'

end Layout

/-- **A decimal laid out without an exponent is a literal of its value.** -/
theorem literal_positional (d : Decimal) : Literal d.positional d.value := by
  have digits : ∀ c ∈ Nat.toDigits 10 d.digits, c.isDigit = true := fun c hc => isDigit_toDigits hc
  have stands := ofDigits_toDigits d.digits
  have nonempty : Nat.toDigits 10 d.digits ≠ [] := Nat.toDigits_ne_nil
  unfold positional
  generalize Nat.toDigits 10 d.digits = ds at *
  dsimp only
  split
  · rename_i whole
    rw [value_whole stands whole]
    exact .whole (by simp [nonempty]) fun c hc =>
      (List.mem_append.mp hc).elim (digits c) isDigit_zeros
  · rename_i fraction
    split
    · -- the point stands between two digits
      rename_i inside
      have before : (ds.take (ds.length - (-d.exponent).toNat)).length ≠ 0 := by
        rw [List.length_take]
        omega
      refine literal_of_parts ?_ fraction ?_ (List.ne_nil_of_length_pos (Nat.pos_of_ne_zero before))
        (fun c hc => digits c (List.mem_of_mem_take hc))
        fun c hc => digits c (List.mem_of_mem_drop hc)
      · rw [List.take_append_drop, stands]
      · rw [List.length_drop]
        omega
    · -- zeros fill the places between the point and the first digit
      rename_i outside
      show Literal (['0'] ++ '.' :: (List.replicate _ '0' ++ ds)) d.value
      refine literal_of_parts ?_ fraction ?_ (by simp) (by simp)
        fun c hc => (List.mem_append.mp hc).elim isDigit_zeros (digits c)
      · rw [← List.append_assoc, ofDigits_append, stands]
        simp [ofDigits_zeros, ← List.replicate_succ]
      · rw [List.length_append, List.length_replicate]
        omega

end Decimal

/-! ## 5. The shortest decimal as a text -/

/-- **A double is its sign and its pattern.** -/
theorem Binary64.ofPattern_isNegative_magnitude (x : Binary64) :
    ofPattern x.isNegative x.magnitude = x := by
  obtain ⟨bits⟩ := x
  have bound : bits.toNat < 2 * signBit := bits.toNat_lt
  have same : UInt64.ofNat bits.toNat = bits := UInt64.ofNat_toNat
  unfold ofPattern magnitude isNegative
  by_cases negative : signBit ≤ bits.toNat
  · have whole : signBit + bits.toNat % signBit = bits.toNat := by
      rw [Nat.mod_eq_sub_mod negative, Nat.mod_eq_of_lt (by omega)]
      omega
    rw [if_pos (decide_eq_true negative), whole, same]
  · rw [if_neg (by simpa using negative), Nat.mod_eq_of_lt (Nat.lt_of_not_le negative), same]

/-- The sign of a double is the one it was made with. -/
theorem Binary64.isNegative_ofPattern (negative : Bool) {pattern : Nat} (h : pattern < signBit) :
    (ofPattern negative pattern).isNegative = negative := by
  unfold isNegative ofPattern
  simp only [UInt64.toNat_ofNat']
  unfold signBit at *
  cases negative <;> simp <;> omega

/-- A double without its sign is its pattern. -/
theorem Binary64.ofPattern_magnitude {x : Binary64} (unsigned : x.isNegative = false) :
    ofPattern false x.magnitude = x := by
  have same := x.ofPattern_isNegative_magnitude
  rwa [unsigned] at same

/-- Digits with a minus sign before them, or without one. -/
def Decimal.putSign (negative : Bool) (digits : List Char) : List Char :=
  if negative then '-' :: digits else digits

namespace Number

/-- The shortest decimal of a finite double as it is written. -/
theorem toList_decimalText {x : Binary64} (finite : x.isFinite = true) :
    (decimalText x).toList = Decimal.putSign x.isNegative
      (if x.magnitude = 0 then ['0'] else (Decimal.shortest .up x.magnitude).positional) := by
  have lt : x.magnitude < Binary64.infinity := of_decide_eq_true finite
  unfold decimalText
  dsimp only
  rw [if_neg (by omega), if_neg lt.ne, String.toList_ofList]
  rfl

end Number

end Reckoner
