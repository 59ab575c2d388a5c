import Mathlib
import Reckoner.Proofs.Lexeme.Display
import Reckoner.Proofs.NormalForm

/-!
# Names and references

What can be defined and what can be referred to are decided in two places: a definition is given a name
by the normal form of a text, and an expression refers to what its reading cuts off.

**The names that can be defined are the texts that are read as a reference to themselves**
(`Name.definable_iff_referable`). A text gives a name in whatever case its letters are and whatever
white space stands around it (`Name.Recased.spelledBy`).
-/

namespace Reckoner

/-! ## 1. A reference and nothing else -/

/-- **A text is read as a reference to itself exactly if it is a name**, in any dialect with
references. -/
theorem Lexeme.ofText_reference_iff {d : Dialect} (has : d.references = true) {s : String} :
    ofText d s = .ok [symbol (.reference s)] ↔ Name.isValid s = true := by
  constructor
  · exact fun read => isValid_of_mem_references read (List.mem_singleton_self s)
  · intro valid
    have writable : (symbol (.reference s)).Writable := valid
    have written : Written d (symbol (.reference s)) s.toList :=
      writable.written fun x same => by
        cases same
        exact has
    exact ofText_spaced (List.forall_mem_singleton.mpr written)

namespace Name

/-! ## 2. Letters in another case -/

/-- **A text is a name but for the case of its ASCII letters**, and for white space around it. -/
def Recased (name : Name) (text : String) : Prop :=
  ∃ front core behind, text.toList = front ++ core ++ behind ∧
    (∀ c ∈ front, Text.isBlank c = true) ∧ (∀ c ∈ behind, Text.isBlank c = true) ∧
      core.map Char.toLower = name.text.toList.map Char.toLower

/-- **A character of a name is the upper case of any other form of it.** -/
theorem upperCase_of_toLower {c x : Char} (part : isPart c = true) (same : x.toLower = c.toLower) :
    Text.UpperCase.ofChar x = [c] := by
  have low := toNat_le_of_isPart part
  have upper : x.toUpper = c.toUpper := by
    rw [← Char.toUpper_toLower_eq_toUpper x, same, Char.toUpper_toLower_eq_toUpper]
  have ascii : x.toNat < 128 := by
    by_cases capital : x.isUpper = true
    · simp only [Char.isUpper, decide_eq_true_eq, UInt32.le_iff_toNat_le] at capital
      exact Nat.lt_of_le_of_lt capital.2 (by decide)
    · rw [Char.toLower_eq_of_not_isUpper capital] at same
      have each : ∀ n ≤ 95, (Char.ofNat n).toLower.toNat < 128 := by decide +kernel
      have := each c.toNat low
      rwa [Char.ofNat_toNat, ← same] at this
  rw [Text.UpperCase.ofChar_ascii ascii, upper,
    ← Text.UpperCase.ofChar_ascii (Nat.lt_of_le_of_lt low (by decide)), upperCase_of_isPart part]

/-- Characters that differ in case only have one upper case. -/
theorem flatMap_upperCase : ∀ {core cs : List Char}, (∀ c ∈ cs, isPart c = true) →
    core.map Char.toLower = cs.map Char.toLower → core.flatMap Text.UpperCase.ofChar = cs
  | [], [], _, _ => rfl
  | x :: core, c :: cs, parts, same => by
      obtain ⟨first, others⟩ := List.cons.inj same
      rw [List.flatMap_cons, upperCase_of_toLower (parts c List.mem_cons_self) first,
        flatMap_upperCase (fun y hy => parts y (List.mem_cons_of_mem _ hy)) others]
      rfl

/-- **A name in other letters spells the name.** -/
theorem Recased.spelledBy {name : Name} {text : String} (h : name.Recased text) :
    name.SpelledBy text := by
  obtain ⟨front, core, behind, whole, before, after, same⟩ := h
  exact ⟨front, core, behind, whole, before, after,
    flatMap_upperCase (isPart_of_isValid name.valid) same⟩

/-- **The names that can be defined are those that can be referred to.** A text is a name exactly if it
gives itself as a name, and exactly if it is read as a reference to itself, with placeholders in the
dialect or without. What a text gives is such a name, and every text that differs from it in the case
of ASCII letters and in white space at the ends only gives it again, as it does itself. -/
theorem definable_iff_referable :
    (∀ s : String, List.TFAE
      [isValid s = true,
        ∃ name, ofText s = .ok name ∧ name.text = s,
        Lexeme.ofText .dynamic s = .ok [.symbol (.reference s)],
        Lexeme.ofText .formula s = .ok [.symbol (.reference s)]]) ∧
      ∀ raw name, ofText raw = .ok name →
        isValid name.text = true ∧ (∀ text, name.Recased text → ofText text = .ok name) ∧
          ofText name.text = .ok name := by
  refine ⟨fun s => ?_, fun raw name _ => ⟨name.valid, fun text h => ?_, ofText_text name⟩⟩
  · tfae_have 1 → 2 := fun valid => ⟨⟨s, valid⟩, ofText_text ⟨s, valid⟩, rfl⟩
    tfae_have 2 → 1 := fun ⟨name, _, same⟩ => same ▸ name.valid
    tfae_have 3 ↔ 1 := Lexeme.ofText_reference_iff rfl
    tfae_have 4 ↔ 1 := Lexeme.ofText_reference_iff rfl
    tfae_finish
  · exact ofText_eq_ok_iff_spelledBy.mpr h.spelledBy

end Name

end Reckoner
