import Reckoner.Proofs.Acceptance
import Reckoner.Proofs.Book.Invariant
import Reckoner.Proofs.Decimal.Whole
import Reckoner.Proofs.Formula.AsVariable
import Reckoner.Proofs.Lexeme.Constant
import Reckoner.Proofs.Resolution.Locality

/-!
# What is displayed can be entered again

A number is displayed as a literal, with a minus sign before it if it is negative and not zero. This is
one of the texts of a constant, and the literal is rounded to the number; so **the text of a finite
number is read as this number, with all its bits, except that a zero comes back without its sign**
(`Number.ofConstant?_text`).

What a variable resolves to is finite (`Means.isFinite`). So its text can be stored as the text of a
constant with a new name, and this resolves to the same value again, whatever the other variables are.
-/

namespace Reckoner

/-! ## 1. Displaying a number and entering it again -/

/-- A literal with a minus sign before it, or without one, is a constant. -/
theorem Literal.constant_putSign {digits : List Char} {q : ℚ} (literal : Literal digits q)
    (negative : Bool) : Constant (Decimal.putSign negative digits) negative q := by
  cases negative with
  | true => exact .minus (.literal literal)
  | false => exact .bare (.literal literal)

namespace Number

/-- A number as it comes back when it is entered again: a zero has lost its sign. -/
def reentered (x : Binary64) : Binary64 :=
  if x.isZero then .ofPattern false 0 else x

/-- The sign that is shown and the pattern make up the number that comes back. -/
theorem ofPattern_hasSign (x : Binary64) : .ofPattern (hasSign x) x.magnitude = reentered x := by
  unfold hasSign reentered
  split
  · rename_i zero
    have pattern : x.magnitude = 0 := beq_iff_eq.mp zero
    rw [zero, pattern]
    cases x.isNegative <;> rfl
  · rename_i nonzero
    rw [Bool.eq_false_of_not_eq_true nonzero, Bool.not_false, Bool.and_true]
    exact x.ofPattern_isNegative_magnitude

section

variable {x : Binary64} (finite : x.isFinite = true)

include finite

/-- The text of a number holds no white space. -/
theorem bare_text : Text.Bare (text x) := by
  obtain ⟨digits, q, literal, -, shown⟩ := exists_literal_text finite
  have solid : ∀ c ∈ digits, Text.isBlank c = false :=
    fun c hc => Name.isBlank_of_isNumeric (literal.isNumeric.2 c hc)
  refine Text.ends_of_solid ?_
  rw [shown, Decimal.putSign]
  split
  · exact List.forall_mem_cons.mpr ⟨rfl, solid⟩
  · exact solid

/-- **The text of a finite number, read as a constant, is the number**, but for the sign of zero. -/
theorem ofConstant?_text : ofConstant? (text x) = some (reentered x) := by
  have lt : x.magnitude < Binary64.infinity := of_decide_eq_true finite
  obtain ⟨digits, q, literal, rounded, shown⟩ := exists_literal_text finite
  have written : Constant (Text.trimmed (text x).toList) (hasSign x) q := by
    rw [(bare_text finite).trimmed_eq, shown]
    exact literal.constant_putSign (hasSign x)
  rw [ofConstant?_of_constant written rounded, if_pos lt, ofPattern_hasSign]

end

end Number

/-! ## 2. A number as a new constant -/

section

variable {b : Book} {name : Name} {x : Binary64}

/-- The constant that a number is entered as. -/
def Variable.ofNumber (name : Name) (x : Binary64) : Variable :=
  ⟨name, .constant, Number.text x⟩

/-- A finite number can be added under a new name, and its text is stored as it is. -/
theorem Book.addVariable_ofNumber (finite : x.isFinite = true) (new : name.text ∉ namesOf b.vars) :
    b.addVariable (.ofNumber name x) = .ok { b with vars := b.vars ++ [.ofNumber name x] } := by
  have numeric : (Variable.ofNumber name x).defect? = none :=
    Variable.defect?_eq_none_iff.mpr ⟨fun _ => ⟨_, Number.ofConstant?_text finite⟩, nofun⟩
  have kept : Text.trim (Number.text x) = Number.text x := (Number.bare_text finite).trim_eq
  refine addVariable_eq_ok_iff.mpr ⟨new, numeric, ?_⟩
  simp only [Variable.ofNumber, kept]

/-- A number that was entered under a new name is the value of this name. -/
theorem naive_ofNumber {vars : List Variable} (finite : x.isFinite = true)
    (new : name.text ∉ namesOf vars) :
    naive (vars ++ [.ofNumber name x]) [] name.text = .ok (Number.reentered x) := by
  have found : definition? (vars ++ [.ofNumber name x]) name.text = some (.ofNumber name x) :=
    definition?_added new
  exact means_iff_naive.mp (.constant found rfl (Number.ofConstant?_text finite))

end

/-- **A displayed number can be entered again.** The text of a finite number is a literal, with a minus
sign or without one, and read as a constant it is the number again, bit for bit, but for the sign of
zero. What resolving finds is finite. And a finite number can be added with its text to a book, behind
any changes, as a constant with a new name: any request for this name is answered with the number, and
where the book could be resolved, it resolves as before, with this number behind the other values. -/
theorem displayed_reenters :
    (∀ x : Binary64, x.isFinite = true →
      (∃ digits q, Literal digits q ∧
        ((Number.text x).toList = digits ∨ (Number.text x).toList = '-' :: digits)) ∧
      Number.ofConstant? (Number.text x) = some (Number.reentered x)) ∧
    (∀ vars values, resolve vars = .ok values →
      ∀ name x, values.lookup name = some x → x.isFinite = true) ∧
    ∀ x : Binary64, x.isFinite = true → ∀ (changes : List Book.Change) (name : Name),
      name.text ∉ namesOf (Book.empty.after changes).vars →
        ∃ b, (Book.empty.after changes).addVariable ⟨name, .constant, Number.text x⟩ = .ok b ∧
          (∃ r, Resolution.start b.vars = .ok r ∧ ∀ names : List String,
            ((r.after names).valueOf name.text).2 = .ok (Number.reentered x)) ∧
          ∀ values, (Book.empty.after changes).resolve = .ok values →
            b.resolve = .ok (values ++ [(name.text, Number.reentered x)]) := by
  refine ⟨fun x finite => ⟨?_, Number.ofConstant?_text finite⟩, fun vars values resolves name x hx => ?_,
    fun x finite changes name new => ?_⟩
  · obtain ⟨digits, q, literal, -, shown⟩ := Number.exists_literal_text finite
    refine ⟨digits, q, literal, ?_⟩
    rw [shown, Decimal.putSign]
    split
    · exact .inr rfl
    · exact .inl rfl
  · exact (means_iff_naive.mpr ((lookup_of_resolve resolves).mp hx)).isFinite
  · have sound := Book.sound_after changes
    generalize Book.empty.after changes = b at *
    have added := Book.addVariable_ofNumber finite new
    refine ⟨_, added, ?_, fun values resolves => ?_⟩
    · obtain ⟨r, starts, answers⟩ :=
        Resolution.answers_eq_naive _ (sound.addVariable added).distinct
      exact ⟨r, starts, fun names => ((answers names).1 name.text).trans (naive_ofNumber finite new)⟩
    · show resolve (b.vars ++ [.ofNumber name x]) = _
      rw [resolve_added (w := .ofNumber name x) resolves new]
      show (naive _ [] name.text).map _ = _
      rw [naive_ofNumber finite new]
      rfl

/-- The double nearest to a tenth. -/
def tenth : Binary64 :=
  ⟨0x3fb999999999999a⟩

/-- Zero with a sign. -/
def minusZero : Binary64 :=
  ⟨0x8000000000000000⟩

/-- A tenth comes back as it was, also by way of a book, and the zero without its sign. -/
theorem tenth_reenters :
    (∃ b, Book.empty.addVariable ⟨⟨"TENTH", by decide⟩, .constant, Number.text tenth⟩ = .ok b ∧
      b.resolve = .ok [("TENTH", tenth)]) ∧
    Number.ofConstant? (Number.text minusZero) = some ⟨0⟩ := by
  have same : Number.reentered tenth = tenth := by decide
  have unsigned : Number.reentered minusZero = ⟨0⟩ := by decide
  obtain ⟨b, added, -, resolves⟩ := displayed_reenters.2.2 tenth (by decide) []
    ⟨"TENTH", by decide⟩ List.not_mem_nil
  refine ⟨⟨b, added, ?_⟩, ?_⟩
  · rw [← same]
    exact resolves [] rfl
  · rw [← unsigned]
    exact (displayed_reenters.1 minusZero (by decide)).2

end Reckoner
