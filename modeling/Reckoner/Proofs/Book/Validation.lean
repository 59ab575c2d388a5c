import Mathlib
import Reckoner.Proofs.Book.Invariant

/-!
# A check predicts the evaluation

`Book.validate` looks at an expression without evaluating it: it reads the text and looks every
reference up among the variables of the book, in any spelling. Evaluating looks the references up among
the values that resolving found. **Where the book can be resolved and the context holds the
placeholders, both refuse an expression for the same fault** (`Book.evaluate_of_validate_error`), and
**an expression that passes has a value, or fails in its arithmetic or its form alone**
(`Book.evaluate_of_validate`).
-/

namespace Reckoner

section

variable {known : String → Option Binary64} {context : Context}

/-- Where every placeholder has a value, the first reference without one is the fault. -/
theorem Formula.bind_undefined {name : String} : ∀ {ls : List Lexeme},
    (∀ other ∈ Lexeme.placeholders ls, (context other).isSome = true) →
      (Lexeme.references ls).find? (fun other => (known other).isNone) = some name →
        Lexeme.bind (symbolValue known context) ls = .error (.undefinedVariable name)
  | [], _, h => by cases h
  | .token t :: ls, held, h => by
      have rest : Lexeme.bind _ ls = _ := bind_undefined held h
      rw [Lexeme.bind_cons, rest]
      rfl
  | .symbol (.placeholder other) :: ls, held, h => by
      obtain ⟨x, hx⟩ := Option.isSome_iff_exists.mp (held other List.mem_cons_self)
      have held' : ∀ other ∈ Lexeme.placeholders ls, (context other).isSome = true :=
        fun o ho => held o (List.mem_cons_of_mem _ ho)
      have rest : Lexeme.bind _ ls = _ := bind_undefined held' h
      rw [Lexeme.bind_cons, rest]
      simp only [Lexeme.toToken, symbolValue, hx]
      rfl
  | .symbol (.reference other) :: ls, held, h => by
      rw [Lexeme.references_reference, List.find?_cons] at h
      rw [Lexeme.bind_cons]
      cases hk : known other with
      | none =>
        rw [hk] at h
        cases h
        simp only [Lexeme.toToken, symbolValue, hk]
        rfl
      | some x =>
        rw [hk] at h
        have rest : Lexeme.bind _ ls = _ := bind_undefined held h
        rw [rest]
        simp only [Lexeme.toToken, symbolValue, hk]
        rfl

/-- Where every placeholder and every reference has a value, binding succeeds. -/
theorem Formula.exists_bind_of_known {ls : List Lexeme}
    (held : ∀ other ∈ Lexeme.placeholders ls, (context other).isSome = true)
    (all : (Lexeme.references ls).find? (fun other => (known other).isNone) = none) :
    ∃ ts, Lexeme.bind (symbolValue known context) ls = .ok ts := by
  refine Lexeme.exists_bind fun s hs => ?_
  cases s with
  | reference other =>
    have present := List.find?_eq_none.mp all other (Lexeme.mem_references.mpr hs)
    cases hk : known other with
    | none => simp [hk] at present
    | some x => exact ⟨x, by simp only [symbolValue, hk]⟩
  | placeholder other =>
    obtain ⟨x, hx⟩ := Option.isSome_iff_exists.mp (held other (Lexeme.mem_placeholders.mpr hs))
    exact ⟨x, by simp only [symbolValue, hx]⟩

end

namespace Book

variable {b : Book} {values : List (String × Binary64)} {context : Context} {expression : String}
  {lexemes : List Lexeme}

/-- **A reference is to a variable of the book exactly if resolving found a value for it.** -/
theorem isNone_findVariable (resolves : b.resolve = .ok values) {name : String}
    (valid : Name.isValid name = true) :
    (b.findVariable name).isNone = (Formula.tableValue values name).isNone := by
  by_cases defined : name ∈ namesOf b.vars
  · have present := (isSome_findVariable valid).mpr defined
    obtain ⟨x, hx⟩ := Formula.exists_tableValue resolves defined
    rw [hx, Option.isNone_eq_false_iff.mpr present]
    rfl
  · have missing : b.findVariable name = none := by
      rw [← Option.not_isSome_iff_eq_none]
      exact (isSome_findVariable valid).not.mpr defined
    have unresolved : Formula.tableValue values name = none := by
      cases hv : Formula.tableValue values name with
      | none => rfl
      | some x =>
        exact absurd ((Formula.tableValue_iff resolves name x).mp hv).mem_namesOf defined
    rw [missing, unresolved]
    rfl

/-- The first reference that the book lacks is the first that has no value. -/
theorem undefined?_eq (resolves : b.resolve = .ok values)
    (read : Lexeme.ofText .formula expression = .ok lexemes) :
    b.undefined? (Lexeme.references lexemes) =
      (Lexeme.references lexemes).find? fun name => (Formula.tableValue values name).isNone := by
  have same : ∀ name ∈ Lexeme.references lexemes,
      (b.findVariable name).isNone = (Formula.tableValue values name).isNone :=
    fun name h => isNone_findVariable resolves (Lexeme.isValid_of_mem_references read h)
  unfold undefined?
  exact List.find?_congr same

/-- A context that holds the placeholders of a text holds those of its lexemes. -/
theorem held_of_read (held : ∀ name ∈ Placeholder.names expression, (context name).isSome = true)
    (read : Lexeme.ofText .formula expression = .ok lexemes) :
    ∀ name ∈ Lexeme.placeholders lexemes, (context name).isSome = true := by
  intro name h
  exact held name ((Lexeme.mem_names_iff read).mpr (Lexeme.mem_placeholders.mp h))

section

variable (resolves : b.resolve = .ok values)
  (held : ∀ name ∈ Placeholder.names expression, (context name).isSome = true)

include resolves held

theorem evaluate_eq : b.evaluate expression context =
    (do
      let lexemes ← Lexeme.ofText .formula expression
      let tokens ← Lexeme.bind (Formula.symbolValue (Formula.tableValue values) context) lexemes
      Token.evaluate tokens).mapError Failure.plain :=
  Formula.evaluate_of_resolve resolves held

/-- **What the check refuses, evaluating refuses for the same fault.** -/
theorem evaluate_of_validate_error {fault : Fault} (h : b.validate expression = .error fault) :
    b.evaluate expression context = .error (.plain fault) := by
  rw [evaluate_eq resolves held]
  unfold validate at h
  rcases bind_eq_error h with unread | ⟨lexemes, read, h⟩
  · rw [unread]
    rfl
  · rw [undefined?_eq resolves read] at h
    split at h
    · rename_i name missing
      cases h
      have fails := Formula.bind_undefined (held_of_read held read) missing
      rw [read]
      show (Lexeme.bind _ lexemes >>= Token.evaluate).mapError _ = _
      rw [fails]
      rfl
    · cases h

/-- **What passes the check has a value, or a fault of its arithmetic or its form.** -/
theorem evaluate_of_validate (h : b.validate expression = .ok ()) :
    (∃ x, b.evaluate expression context = .ok x) ∨
      ∃ fault : Fault, fault.Numeric ∧ b.evaluate expression context = .error (.plain fault) := by
  rw [evaluate_eq resolves held]
  unfold validate at h
  obtain ⟨lexemes, read, h⟩ := bind_eq_ok h
  rw [undefined?_eq resolves read] at h
  split at h
  · cases h
  · rename_i all
    obtain ⟨ts, bound⟩ := Formula.exists_bind_of_known (held_of_read held read) all
    rw [read]
    show (∃ x, (Lexeme.bind _ lexemes >>= Token.evaluate).mapError _ = _) ∨
      ∃ fault, _ ∧ (Lexeme.bind _ lexemes >>= Token.evaluate).mapError _ = _
    rw [bound]
    show (∃ x, (Token.evaluate ts).mapError _ = _) ∨ ∃ fault, _ ∧ (Token.evaluate ts).mapError _ = _
    cases evaluated : Token.evaluate ts with
    | ok x => exact .inl ⟨x, rfl⟩
    | error fault => exact .inr ⟨fault, Token.numeric_of_evaluate evaluated, rfl⟩

end

/-- **The check of an expression predicts its evaluation**: behind any changes, where the variables of
the book can be resolved and the context holds the placeholders of the expression, what the check
refuses has this fault when it is evaluated, and what passes has a value or fails for its parentheses,
its operands, a division by zero or a result that is not finite, and for no variable. -/
theorem validate_predicts (changes : List Change) {values : List (String × Binary64)}
    (resolves : (empty.after changes).resolve = .ok values) (expression : String) (context : Context)
    (held : ∀ name ∈ Placeholder.names expression, (context name).isSome = true) :
    (∀ fault, (empty.after changes).validate expression = .error fault →
      (empty.after changes).evaluate expression context = .error (.plain fault)) ∧
    ((empty.after changes).validate expression = .ok () →
      (∃ x, (empty.after changes).evaluate expression context = .ok x) ∨
        ∃ fault : Fault, fault.Numeric ∧
          (empty.after changes).evaluate expression context = .error (.plain fault)) :=
  ⟨fun _ => evaluate_of_validate_error resolves held, evaluate_of_validate resolves held⟩

/-- A constant, the only variable of its book. -/
def charge : Variable :=
  ⟨⟨"CHARGE", by decide⟩, .constant, " 0"⟩

/-- A context that holds a rate of zero only. -/
def atZero : Context :=
  fun name => if name = "rate" then some ⟨0⟩ else none

/-- `CHARGE + FEE * rate` fails for `FEE`, in the check and in the evaluation. -/
theorem charge_validate :
    (empty.after [.addVariable charge]).evaluate "CHARGE + FEE * \x7b\x7b#rate\x7d\x7d" atZero =
      .error (.plain (.undefinedVariable "FEE")) := by
  have kept : empty.after [.addVariable charge] = ⟨[{ charge with text := "0" }], []⟩ := by cbv
  have resolves : (empty.after [.addVariable charge]).resolve = .ok [("CHARGE", ⟨0⟩)] := by
    rw [kept]
    exact (resolve_eq_naiveAll (by decide)).trans (by cbv)
  have names : Placeholder.names "CHARGE + FEE * \x7b\x7b#rate\x7d\x7d" = ["rate"] := by cbv
  have held : ∀ name ∈ Placeholder.names "CHARGE + FEE * \x7b\x7b#rate\x7d\x7d",
      (atZero name).isSome = true := by
    rw [names]
    decide
  exact (validate_predicts [.addVariable charge] resolves _ atZero held).1
    (.undefinedVariable "FEE") (by rw [kept]; cbv)

end Book

end Reckoner
