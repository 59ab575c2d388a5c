import Reckoner.Proofs.Lexeme.Placeholders
import Reckoner.Proofs.Faults

/-!
# Formulas over variables that have values

Where the variables can be resolved and the context holds the placeholders of a formula, only three
steps are left: the text is read, its symbols are replaced by values, and the tokens are evaluated
(`Formula.evaluate_of_resolve`). The values of variables are those that have a derivation
(`Formula.tableValue_iff`), so nothing of how they were found matters.
-/

namespace Reckoner

namespace Formula

/-- The values that resolving found, by name. -/
def tableValue (values : List (String × Binary64)) (name : String) : Option Binary64 :=
  (Std.HashMap.ofList values)[name]?

section

variable {vars : List Variable} {values : List (String × Binary64)} {context : Context}
  {expression : String}

/-- **The values by name are those that have a derivation.** -/
theorem tableValue_iff (h : resolve vars = .ok values) (name : String) (x : Binary64) :
    tableValue values name = some x ↔ Means vars name x := by
  have distinct := distinct_of_resolve h
  rw [resolve_eq_naiveAll distinct] at h
  obtain ⟨names, derived, lookup⟩ := lookup_naiveAll h
  unfold tableValue
  by_cases defined : name ∈ namesOf vars
  · obtain ⟨v, hv, rfl⟩ := mem_namesOf.mp defined
    obtain ⟨y, hy⟩ := derived v hv
    obtain ⟨before, behind, entries, -⟩ :=
      List.lookup_eq_some_iff.mp ((lookup v.name.text y).mpr ⟨defined, hy⟩)
    have different : values.Pairwise fun a b => (a.1 == b.1) = false := by
      rw [← names, List.Nodup, List.pairwise_map] at distinct
      exact distinct.imp beq_false_of_ne
    rw [Std.HashMap.getElem?_ofList_of_mem BEq.rfl different (entries ▸ by simp : (_, y) ∈ values)]
    exact ⟨fun e => Option.some.inj e ▸ hy, fun hx => congrArg some (hy.unique hx)⟩
  · rw [Std.HashMap.getElem?_ofList_of_contains_eq_false (by simpa [names] using defined)]
    constructor
    · intro found
      cases found
    · exact fun hx => absurd hx.mem_namesOf defined

/-- Every variable that is defined has a value. -/
theorem exists_tableValue (h : resolve vars = .ok values) {name : String}
    (defined : name ∈ namesOf vars) : ∃ x, tableValue values name = some x := by
  have derived := h
  rw [resolve_eq_naiveAll (distinct_of_resolve h)] at derived
  obtain ⟨v, hv, rfl⟩ := mem_namesOf.mp defined
  obtain ⟨x, hx⟩ := (lookup_naiveAll derived).2.1 v hv
  exact ⟨x, (tableValue_iff h _ x).mpr hx⟩

/-- The value that is found with the tokens. -/
theorem evaluateWith_snd (known : String → Option Binary64) :
    (evaluateWith known context expression).map Prod.snd =
      (do
        let lexemes ← Lexeme.ofText .formula expression
        let tokens ← Lexeme.bind (symbolValue known context) lexemes
        Token.evaluate tokens) := by
  rw [evaluateWith_bind]
  cases Lexeme.ofText .formula expression with
  | error fault => rfl
  | ok lexemes =>
    simp only [bind, Except.bind]
    cases Lexeme.bind (symbolValue known context) lexemes with
    | error fault => rfl
    | ok tokens =>
      dsimp only
      cases Token.evaluate tokens <;> rfl

/-- A symbol without a value has that as its fault. -/
theorem unbound_of_symbolValue {known : String → Option Binary64} {s : Symbol} {fault : Fault}
    (h : symbolValue known context s = .error fault) : fault = s.unbound := by
  unfold symbolValue at h
  dsimp only at h
  split at h
  · cases h
  · exact (Except.error.inj h).symm

/-- **The value of a formula over resolved variables** is that of its text, read, bound and
evaluated. -/
theorem evaluate_of_resolve (h : resolve vars = .ok values)
    (held : ∀ name ∈ Placeholder.names expression, (context name).isSome = true) :
    (evaluate vars context expression).map Evaluation.value =
      (do
        let lexemes ← Lexeme.ofText .formula expression
        let tokens ← Lexeme.bind (symbolValue (tableValue values) context) lexemes
        Token.evaluate tokens).mapError Failure.plain := by
  have all : (Placeholder.names expression).find? (fun name => (context name).isNone) = none := by
    rw [List.find?_eq_none]
    intro name hn missing
    have present := held name hn
    rw [Option.isNone_iff_eq_none.mp missing] at present
    cases present
  rw [← evaluateWith_snd]
  cases found : evaluateWith (tableValue values) context expression with
  | error fault =>
    unfold tableValue at found
    simp only [evaluate, all, h, found]
    rfl
  | ok result =>
    unfold tableValue at found
    simp only [evaluate, all, h, found]
    rfl

/-- **Where an expression has no value over values that are known**, its text cannot be read, or it
holds a symbol without a value, or its tokens have none. -/
theorem error_of_evaluateWith {known : String → Option Binary64} {fault : Fault}
    (h : evaluateWith known context expression = .error fault) :
    fault.Lexical ∨
      (∃ lexemes s, Lexeme.ofText .formula expression = .ok lexemes ∧ Lexeme.symbol s ∈ lexemes ∧
        symbolValue known context s = .error fault) ∨
      fault.Numeric := by
  rw [evaluateWith_bind] at h
  rcases bind_eq_error h with unread | ⟨lexemes, read, h⟩
  · exact .inl (Lexeme.lexical_of_ofText unread)
  rcases bind_eq_error h with unbound | ⟨tokens, -, h⟩
  · obtain ⟨s, hs, missing⟩ := Lexeme.exists_of_bind_error unbound
    exact .inr (.inl ⟨lexemes, s, read, hs, missing⟩)
  rcases bind_eq_error h with numeric | ⟨x, -, h⟩
  · exact .inr (.inr (Token.numeric_of_evaluate numeric))
  · cases h

/-- **Where a formula has no value**, a name is missing in its context, or the variables have no
values, or its own text shows the fault. -/
theorem error_of_evaluate {failure : Failure} (h : evaluate vars context expression = .error failure) :
    resolve vars = .error failure ∨ ∃ fault, failure = .plain fault ∧
      (fault.Lexical ∨ (∃ s : Symbol, fault = s.unbound) ∨ fault.Numeric) := by
  unfold evaluate at h
  dsimp only at h
  split at h
  · rename_i name _
    cases h
    exact .inr ⟨_, rfl, .inr (.inl ⟨.placeholder name, rfl⟩)⟩
  · split at h
    · rename_i fails
      cases h
      exact .inl fails
    · split at h
      · rename_i fault fails
        cases h
        refine .inr ⟨fault, rfl, ?_⟩
        rcases error_of_evaluateWith fails with lexical | ⟨_, s, -, -, missing⟩ | numeric
        · exact .inl lexical
        · exact .inr (.inl ⟨s, unbound_of_symbolValue missing⟩)
        · exact .inr (.inr numeric)
      · cases h

end

end Formula

end Reckoner
