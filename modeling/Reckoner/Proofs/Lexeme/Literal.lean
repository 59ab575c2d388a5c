import Reckoner.Number
import Reckoner.Proofs.Decimal.Rounding

/-!
# Literals

A literal is digits, or digits, a point and digits, and its value is the number these stand for in the
decimal system (`Literal`). **The text of a literal, and no other, is read as a double, and this is the
correct rounding of its value** (`Number.ofLiteral?_eq_some_iff`).
-/

namespace Reckoner

/-! ## 1. Runs -/

/-- A run of a class of characters ends where the class does. -/
theorem takeWhile_run {p : Char → Bool} {run : List Char} (rest : List Char)
    (inside : ∀ c ∈ run, p c = true) (outside : ∀ c ∈ rest.head?, p c = false) :
    (run ++ rest).takeWhile p = run ∧ (run ++ rest).dropWhile p = rest := by
  rw [List.takeWhile_append_of_pos inside, List.dropWhile_append_of_pos inside]
  cases rest with
  | nil => simp
  | cons c rest => simp [outside c rfl]

/-- Behind a run of a class stands nothing of it. -/
theorem outside_dropWhile {p : Char → Bool} {cs : List Char} {c : Char}
    (h : c ∈ (cs.dropWhile p).head?) : p c = false := by
  have := List.head?_dropWhile_not p cs
  rw [Option.mem_def.mp h] at this
  exact this

/-! ## 2. Digits -/

/-- The digits of two runs make up a number in which the second has its own places. -/
theorem Decimal.ofDigits_append (ds fs : List Char) :
    ofDigits (ds ++ fs) = ofDigits ds * 10 ^ fs.length + ofDigits fs := by
  induction fs using List.reverseRecOn with
  | nil => simp [ofDigits]
  | append_singleton fs c ih =>
    rw [← List.append_assoc, ofDigits_append_singleton, ofDigits_append_singleton, ih,
      List.length_append, List.length_singleton]
    unfold pushDigit
    ring

/-- The value of a literal is that of its decimal. -/
theorem Decimal.value_ofParts (ds fs : List Char) :
    (ofParts ds fs).value = ofDigits ds + ofDigits fs / 10 ^ fs.length := by
  unfold value ofParts
  rw [zpow_neg, zpow_natCast, ofDigits_append]
  push_cast
  field_simp

/-! ## 3. Literals -/

/-- **A literal and its value**: digits, or digits, a point and digits. -/
inductive Literal : List Char → ℚ → Prop
  | whole {ds : List Char} (nonempty : ds ≠ []) (digits : ∀ c ∈ ds, c.isDigit = true) :
      Literal ds (Decimal.ofDigits ds)
  | fraction {ds fs : List Char} (nonempty : ds ≠ []) (digits : ∀ c ∈ ds, c.isDigit = true)
      (nonempty' : fs ≠ []) (digits' : ∀ c ∈ fs, c.isDigit = true) :
      Literal (ds ++ '.' :: fs) (Decimal.ofDigits ds + Decimal.ofDigits fs / 10 ^ fs.length)

theorem isDigit_point : Char.isDigit '.' = false := by decide

/-- Digits, a point and digits are read as the digits on both sides of the point. -/
theorem Number.parts?_point {ds fs : List Char} (digits : ∀ c ∈ ds, c.isDigit = true)
    (digits' : ∀ c ∈ fs, c.isDigit = true) : parts? (ds ++ '.' :: fs) = some (ds, some fs) := by
  have run := takeWhile_run ('.' :: fs) digits (by simp [isDigit_point])
  unfold parts?
  rw [run.1, run.2]
  exact if_pos (List.all_eq_true.mpr digits')

/-- A literal is read as a decimal of its value. -/
theorem Literal.literal? {cs : List Char} {q : ℚ} (h : Literal cs q) :
    ∃ d, Number.literal? cs = some d ∧ d.value = q := by
  cases h with
  | whole nonempty digits =>
    have run := takeWhile_run [] digits (by simp)
    rw [List.append_nil] at run
    have parts : Number.parts? cs = some (cs, none) := by
      unfold Number.parts?
      rw [run.1, run.2]
    refine ⟨.ofParts cs [], by simp [Number.literal?, parts, nonempty], ?_⟩
    rw [Decimal.value_ofParts]
    simp [Decimal.ofDigits]
  | @fraction ds fs nonempty digits nonempty' digits' =>
    have parts := Number.parts?_point digits digits'
    exact ⟨.ofParts ds fs, by simp [Number.literal?, parts, nonempty, nonempty'],
      Decimal.value_ofParts ds fs⟩

/-- What is read as the parts of a number are runs of digits, with a point between them if there are
two. -/
theorem Number.parts?_eq_some {cs ds : List Char} {fraction : Option (List Char)}
    (h : parts? cs = some (ds, fraction)) :
    (∀ c ∈ ds, c.isDigit = true) ∧ ((fraction = none ∧ cs = ds) ∨
      ∃ fs, fraction = some fs ∧ (∀ c ∈ fs, c.isDigit = true) ∧ cs = ds ++ '.' :: fs) := by
  have digits : ∀ c ∈ cs.takeWhile Char.isDigit, c.isDigit = true :=
    fun c hc => List.mem_takeWhile_imp hc
  have whole := List.takeWhile_append_dropWhile (p := Char.isDigit) (l := cs)
  unfold parts? at h
  dsimp only at h
  split at h
  · rename_i rest
    cases h
    exact ⟨digits, .inl ⟨rfl, by simpa [rest] using whole.symm⟩⟩
  · rename_i fs rest
    split at h
    · rename_i all
      cases h
      exact ⟨digits, .inr ⟨fs, rfl, List.all_eq_true.mp all, by rw [← rest, whole]⟩⟩
    · cases h
  · cases h

/-- What is read as a decimal is a literal of its value. -/
theorem Number.literal_of_literal? {cs : List Char} {d : Decimal} (h : literal? cs = some d) :
    Literal cs d.value := by
  unfold literal? at h
  obtain ⟨⟨ds, fraction⟩, parts, h⟩ := Option.bind_eq_some_iff.mp h
  obtain ⟨digits, hf⟩ := parts?_eq_some parts
  simp only [Option.ite_none_left_eq_some, Bool.or_eq_true, List.isEmpty_iff, not_or,
    Option.some.injEq] at h
  obtain ⟨⟨nonempty, nonempty'⟩, rfl⟩ := h
  rw [Decimal.value_ofParts]
  rcases hf with ⟨rfl, rfl⟩ | ⟨fs, rfl, digits', rfl⟩
  · simpa [Decimal.ofDigits] using Literal.whole nonempty digits
  · exact .fraction nonempty digits (by simpa using nonempty') digits'

/-- **A literal is read as the double its value is rounded to**, and nothing else is read as one. -/
theorem Number.ofLiteral?_eq_some_iff {cs : List Char} {x : Binary64} :
    ofLiteral? cs = some x ↔ ∃ q pattern, Literal cs q ∧
      Binary64.CorrectlyRounded q pattern ∧ x = .ofPattern false pattern := by
  unfold ofLiteral?
  rw [Option.map_eq_some_iff]
  constructor
  · rintro ⟨d, read, rfl⟩
    exact ⟨d.value, d.nearest, literal_of_literal? read, d.correctlyRounded, rfl⟩
  · rintro ⟨q, pattern, literal, rounded, rfl⟩
    obtain ⟨d, read, rfl⟩ := literal.literal?
    exact ⟨d, read, by rw [rounded.unique d.correctlyRounded]⟩

/-- What is no literal is not read. -/
theorem Number.ofLiteral?_eq_none_iff {cs : List Char} :
    ofLiteral? cs = none ↔ ∀ q, ¬ Literal cs q := by
  unfold ofLiteral?
  rw [Option.map_eq_none_iff, Option.eq_none_iff_forall_ne_some]
  constructor
  · intro unread q literal
    obtain ⟨d, read, -⟩ := literal.literal?
    exact unread d read
  · intro none d read
    exact none d.value (literal_of_literal? read)

/-- A literal consists of digits and points. -/
theorem Literal.isNumeric {cs : List Char} {q : ℚ} (h : Literal cs q) :
    cs ≠ [] ∧ ∀ c ∈ cs, Number.isNumeric c = true := by
  have digit : ∀ {c : Char}, c.isDigit = true → Number.isNumeric c = true := fun hc => by
    simp [Number.isNumeric, hc]
  cases h with
  | whole nonempty digits => exact ⟨nonempty, fun c hc => digit (digits c hc)⟩
  | fraction nonempty digits _ digits' =>
    refine ⟨by simp, fun c hc => ?_⟩
    rcases List.mem_append.mp hc with hc | hc
    · exact digit (digits c hc)
    · rcases List.mem_cons.mp hc with rfl | hc
      · rfl
      · exact digit (digits' c hc)

end Reckoner
