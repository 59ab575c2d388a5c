import Reckoner.Proofs.Book.Changes
import Reckoner.Proofs.Formula.Values
import Reckoner.Proofs.Resolution.Blame

/-!
# What holds of every book

A book is changed by adding, updating and removing entries and by opening a file, and each of these
looks at what it is given in its own way: what is added is looked at before it is trimmed, a new text
after that, and a file entry by entry. `Book.Sound` says what comes of it - names in their normal form
and none of them twice, constants that are numbers, expressions that are not empty, no white space at
either end of a text. **It holds behind all changes**, whether they succeed or not (`Book.sound_after`).

So two faults of a list of variables never come from a book: a name that is defined twice, and a
constant that is no number (`Book.Sound.not_excluded`).
-/

namespace Reckoner

/-! ## 1. What is kept -/

/-- **What is kept of a variable.** -/
structure Variable.Kept (v : Variable) : Prop where
  name : Name.ofText v.name.text = .ok v.name
  numeric : v.kind = .constant → ∃ x, Number.ofConstant? v.text = some x
  nonempty : v.kind = .dynamic → v.text ≠ ""
  bare : Text.Bare v.text

/-- **What is kept of a formula.** -/
structure Formula.Kept (f : Formula) : Prop where
  name : Name.ofText f.name.text = .ok f.name
  nonempty : f.expression ≠ ""
  bare : Text.Bare f.expression

/-- A variable that lacks nothing is kept with its text trimmed. -/
theorem Variable.kept_of_defect? {v : Variable} (h : v.defect? = none) :
    ({ v with text := Text.trim v.text } : Variable).Kept := by
  obtain ⟨numeric, nonempty⟩ := defect?_eq_none_iff.mp h
  refine ⟨Name.ofText_text v.name, fun kind => ?_, nonempty, Text.bare_trim v.text⟩
  rw [Number.ofConstant?_trim]
  exact numeric kind

/-- What is kept lacks nothing. -/
theorem Variable.Kept.defect?_eq_none {v : Variable} (h : v.Kept) : v.defect? = none := by
  refine defect?_eq_none_iff.mpr ⟨h.numeric, fun kind => ?_⟩
  rw [h.bare.trim_eq]
  exact h.nonempty kind

namespace Book

/-- **What holds of a book**: names are distinct, and entries are kept in their normal form. -/
structure Sound (b : Book) : Prop where
  distinct : (namesOf b.vars).Nodup
  kept : ∀ v ∈ b.vars, v.Kept
  distinct' : (namesOfFormulas b.formulas).Nodup
  kept' : ∀ f ∈ b.formulas, f.Kept

/-! ## 2. Changes -/

section

variable {b b' : Book} {v : Variable} {f : Formula}

theorem sound_empty : Sound empty :=
  ⟨List.nodup_nil, fun _ h => absurd h List.not_mem_nil, List.nodup_nil,
    fun _ h => absurd h List.not_mem_nil⟩

theorem Sound.addVariable (h : b.Sound) (ok : b.addVariable v = .ok b') : b'.Sound := by
  obtain ⟨new, usable, rfl⟩ := addVariable_eq_ok_iff.mp ok
  refine ⟨?_, fun w hw => ?_, h.distinct', h.kept'⟩
  · simpa [namesOf] using List.Nodup.concat new h.distinct
  · rcases List.mem_append.mp hw with old | added
    · exact h.kept w old
    · rw [List.mem_singleton.mp added]
      exact Variable.kept_of_defect? usable

theorem Sound.updateVariable {raw text : String} (h : b.Sound)
    (ok : b.updateVariable raw text = .ok b') : b'.Sound := by
  obtain ⟨v, found, usable, rfl⟩ := updateVariable_eq_ok_iff.mp ok
  rw [findVariable_eq] at found
  refine ⟨?_, fun w hw => ?_, h.distinct', h.kept'⟩
  · have named : v.name.text = Name.normalize raw := definition?_name found
    have named' : ({ v with text := Text.trim text } : Variable).name.text = Name.normalize raw :=
      named
    rw [namesOf_replaceFirst named']
    exact h.distinct
  · rcases mem_replaceFirst hw with rfl | old
    · -- the text was trimmed before it was looked at
      simpa using Variable.kept_of_defect? usable
    · exact h.kept w old

theorem Sound.removeVariable (h : b.Sound) (raw : String) : (b.removeVariable raw).2.Sound := by
  have fewer : List.Sublist (b.removeVariable raw).2.vars b.vars := List.eraseP_sublist
  exact ⟨(fewer.map _).nodup h.distinct, fun w hw => h.kept w (fewer.mem hw), h.distinct', h.kept'⟩

theorem Sound.addFormula (h : b.Sound) (ok : b.addFormula f = .ok b') : b'.Sound := by
  obtain ⟨new, nonempty, rfl⟩ := addFormula_eq_ok_iff.mp ok
  refine ⟨h.distinct, h.kept, ?_, fun g hg => ?_⟩
  · simpa [namesOfFormulas] using List.Nodup.concat new h.distinct'
  · rcases List.mem_append.mp hg with old | added
    · exact h.kept' g old
    · rw [List.mem_singleton.mp added]
      exact ⟨Name.ofText_text f.name, nonempty, Text.bare_trim f.expression⟩

theorem Sound.removeFormula (h : b.Sound) (raw : String) : (b.removeFormula raw).2.Sound := by
  have fewer : List.Sublist (b.removeFormula raw).2.formulas b.formulas := List.eraseP_sublist
  exact ⟨h.distinct, h.kept, (fewer.map _).nodup h.distinct', fun g hg => h.kept' g (fewer.mem hg)⟩

/-- **One change.** -/
theorem Sound.change (h : b.Sound) (c : Change) : (b.change c).Sound :=
  change_keeps sound_empty (fun _ _ _ ok h => h.addVariable ok)
    (fun _ _ _ _ ok h => h.updateVariable ok) (fun _ raw h => h.removeVariable raw)
    (fun _ _ _ ok h => h.addFormula ok) (fun _ raw h => h.removeFormula raw) h c

/-- **All changes**: what the empty book becomes is sound. -/
theorem sound_after (changes : List Change) : (empty.after changes).Sound :=
  after_keeps (fun _ c h => h.change c) sound_empty changes

end

end Book

/-! ## 3. What does not go wrong -/

/-- The faults of variables that no book keeps. -/
inductive Fault.Excluded : Fault → Prop
  | duplicateVariable (name : String) : Excluded (.duplicateVariable name)
  | nonNumericConstant (name : String) : Excluded (.nonNumericConstant name)

section

variable {vars : List Variable} {failure : Failure}

/-- Where every constant is a number, no failure that is explained is about a repeated name or a
constant. -/
theorem Explained.not_excluded {answer : String → Except Failure Binary64} {name : String}
    (numeric : ∀ other, ¬ NonNumeric vars other) (h : Explained vars answer name failure) :
    ¬ failure.fault.Excluded := by
  cases h with
  | undefined => exact fun excluded => nomatch excluded
  | nonNumeric rejected => exact absurd rejected (numeric name)
  | @within v owner fault reached found kind cause =>
    intro excluded
    cases excluded with
    | duplicateVariable other =>
      obtain ⟨lexemes, value, -, -, fails⟩ := cause
      cases Token.numeric_of_evaluate fails
    | nonNumericConstant other => exact numeric other cause.2

/-- A fault that a formula shows itself is not about the definition of a variable. -/
theorem not_excluded_of_formula {fault : Fault}
    (h : fault.Lexical ∨ (∃ s : Symbol, fault = s.unbound) ∨ fault.Numeric) : ¬ fault.Excluded := by
  rcases h with lexical | ⟨s, rfl⟩ | numeric
  · cases lexical <;> exact (nomatch ·)
  · cases s <;> exact (nomatch ·)
  · cases numeric <;> exact (nomatch ·)

end

namespace Book

variable {b : Book} {failure : Failure}

theorem Sound.not_nonNumeric (h : b.Sound) (name : String) : ¬ NonNumeric b.vars name := by
  rintro ⟨v, found, kind, rejected⟩
  obtain ⟨x, accepted⟩ := (h.kept v (definition?_mem found)).numeric kind
  cases rejected.symm.trans accepted

theorem Sound.not_excluded_of_resolve (h : b.Sound) (fails : b.resolve = .error failure) :
    ¬ failure.fault.Excluded := by
  obtain ⟨v, -, explained⟩ := explained_of_resolve h.distinct fails
  exact explained.not_excluded h.not_nonNumeric

/-- **No request to a sound book fails for the definition of a variable.** -/
theorem Sound.not_excluded_of_evaluate (h : b.Sound) {expression : String} {context : Context}
    (fails : Formula.evaluate b.vars context expression = .error failure) :
    ¬ failure.fault.Excluded := by
  rcases Formula.error_of_evaluate fails with unresolved | ⟨fault, rfl, own⟩
  · exact h.not_excluded_of_resolve unresolved
  · exact not_excluded_of_formula own

/-- **What holds of every book there can be**: behind any changes, from the empty book on, names are
distinct and in their normal form, constants are numbers, expressions are not empty and no text has
white space at its ends. No request to such a book fails, by itself or inside a variable, because a
variable is defined twice or a constant is no number. -/
theorem sound_and_not_excluded (changes : List Change) :
    (empty.after changes).Sound ∧
      (∀ failure, (empty.after changes).resolve = .error failure → ¬ failure.fault.Excluded) ∧
      (∀ expression context failure,
        (empty.after changes).evaluate expression context = .error failure →
          ¬ failure.fault.Excluded) ∧
      ∀ name context failure,
        (empty.after changes).evaluateNamed name context = .error (.failed failure) →
          ¬ failure.fault.Excluded := by
  have h := sound_after changes
  refine ⟨h, fun _ => h.not_excluded_of_resolve, fun expression context failure fails => ?_,
    fun name context failure fails => ?_⟩
  · exact h.not_excluded_of_evaluate (map_eq_error fails)
  · unfold evaluateNamed at fails
    rcases bind_eq_error fails with unknown | ⟨f, -, fails⟩
    · unfold formula at unknown
      split at unknown <;> cases unknown
    · obtain ⟨failure', evaluated, same⟩ := mapError_eq_error fails
      cases same
      exact h.not_excluded_of_evaluate evaluated

end Book

end Reckoner
