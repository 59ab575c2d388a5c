import Reckoner.Proofs.Formula.Values
import Reckoner.Proofs.Resolution.Blame

/-!
# What a formula takes from its context

The names of the placeholders are listed from the text of a formula before anything else is done, and
a name that the context lacks stops the evaluation there. Their values are fetched much later, for the
lexemes of the text, once the variables have values. Nothing in between looks at the context.

* **Contexts that agree on the names listed cannot be told apart** (`Formula.evaluate_congr`).
* A missing name is reported exactly if it is the first one that the context lacks
  (`Formula.evaluate_missing_iff`): behind the first look at the names no step meets a placeholder
  without a value (`Formula.not_missing_of_held`).
-/

namespace Reckoner

/-! ## 1. The first of a sorted list -/

/-- Names are listed in the order of code points. -/
theorem Text.pairwise_sortedDistinct (names : List String) :
    (sortedDistinct names).Pairwise (· ≤ ·) := by
  have sorted : (sortedDistinct names).Pairwise fun a b => decide (a ≤ b) = true := by
    refine List.pairwise_mergeSort (fun a b c hab hbc => ?_) (fun a b => ?_) _
    · have ab := of_decide_eq_true hab
      have bc := of_decide_eq_true hbc
      exact decide_eq_true (String.le_trans ab bc)
    · have total := String.le_total a b
      simpa using total
  exact sorted.imp of_decide_eq_true

/-- In a sorted list the first entry of a kind is the least of that kind. -/
theorem find?_eq_some_iff_least {p : String → Bool} {name : String} :
    ∀ {names : List String}, names.Pairwise (· ≤ ·) →
      (names.find? p = some name ↔
        name ∈ names ∧ p name = true ∧ ∀ other ∈ names, p other = true → name ≤ other)
  | [], _ => by simp
  | first :: names, sorted => by
      obtain ⟨below, sorted'⟩ := List.pairwise_cons.mp sorted
      by_cases hp : p first = true
      · rw [List.find?_cons_of_pos hp]
        constructor
        · intro e
          cases e
          refine ⟨List.mem_cons_self, hp, fun other ho _ => ?_⟩
          rcases List.mem_cons.mp ho with rfl | ho
          · exact String.le_refl _
          · exact below other ho
        · intro ⟨hn, _, least⟩
          -- both are least
          have le : name ≤ first := least first List.mem_cons_self hp
          rcases List.mem_cons.mp hn with rfl | hn
          · rfl
          · exact congrArg some (String.le_antisymm (below name hn) le)
      · rw [List.find?_cons_of_neg hp, find?_eq_some_iff_least sorted']
        constructor
        · intro ⟨hn, hpn, least⟩
          refine ⟨List.mem_cons_of_mem _ hn, hpn, fun other ho hpo => ?_⟩
          rcases List.mem_cons.mp ho with rfl | ho
          · exact absurd hpo hp
          · exact least other ho hpo
        · intro ⟨hn, hpn, least⟩
          have hn' : name ∈ names := by
            rcases List.mem_cons.mp hn with rfl | hn
            · exact absurd hpn hp
            · exact hn
          exact ⟨hn', hpn, fun other ho => least other (List.mem_cons_of_mem _ ho)⟩

namespace Formula

/-! ## 2. Contexts that agree -/

/-- Contexts that have the same values for the placeholders of an expression, and lack the same. -/
def Agree (expression : String) (context context' : Context) : Prop :=
  ∀ name ∈ Placeholder.names expression, context name = context' name

section

variable {vars : List Variable} {context context' : Context} {expression : String}

/-- The symbols of a text that was read have the same values in contexts that agree. -/
theorem Agree.symbolValue_eq (h : Agree expression context context') {lexemes : List Lexeme}
    (read : Lexeme.ofText .formula expression = .ok lexemes) (known : String → Option Binary64)
    {s : Symbol} (hs : Lexeme.symbol s ∈ lexemes) :
    symbolValue known context s = symbolValue known context' s := by
  cases s with
  | reference name => rfl
  | placeholder name =>
    have same : context name = context' name := h name ((Lexeme.mem_names_iff read).mpr hs)
    simp only [symbolValue, same]

theorem Agree.evaluateWith_eq (h : Agree expression context context')
    (known : String → Option Binary64) :
    evaluateWith known context expression = evaluateWith known context' expression := by
  rw [evaluateWith_bind, evaluateWith_bind]
  cases read : Lexeme.ofText .formula expression with
  | error fault => rfl
  | ok lexemes =>
    have bound : Lexeme.bind (symbolValue known context) lexemes =
        Lexeme.bind (symbolValue known context') lexemes :=
      Lexeme.bind_congr fun _ hs => h.symbolValue_eq read known hs
    simp only [bind, Except.bind, bound]

/-- **Contexts that agree on its placeholders cannot be told apart by a formula**: the values, the
tokens and the names are the same, or the failure is. -/
theorem evaluate_congr (h : Agree expression context context') :
    evaluate vars context expression = evaluate vars context' expression := by
  have names : ((Placeholder.names expression).find? fun name => (context name).isNone) =
      (Placeholder.names expression).find? fun name => (context' name).isNone :=
    List.find?_congr fun name hn => by rw [h name hn]
  unfold evaluate
  simp only [names, h.evaluateWith_eq]

/-! ## 3. Names that a context lacks -/

/-- **The first name that a context lacks**, in the order of code points, of those that an expression
has placeholders for. -/
structure FirstMissing (expression : String) (context : Context) (name : String) : Prop where
  listed : name ∈ Placeholder.names expression
  missing : context name = none
  first : ∀ other ∈ Placeholder.names expression, context other = none → name ≤ other

theorem find?_missing_iff {name : String} :
    (Placeholder.names expression).find? (fun name => (context name).isNone) = some name ↔
      FirstMissing expression context name := by
  have sorted := Text.pairwise_sortedDistinct ((Placeholder.spans expression).map (·.name))
  refine (find?_eq_some_iff_least sorted).trans ?_
  simp only [Option.isNone_iff_eq_none]
  constructor
  · intro ⟨listed, missing, first⟩
    exact ⟨listed, missing, first⟩
  · intro ⟨listed, missing, first⟩
    exact ⟨listed, missing, first⟩

theorem find?_missing_eq_none :
    (Placeholder.names expression).find? (fun name => (context name).isNone) = none ↔
      ∀ name ∈ Placeholder.names expression, context name ≠ none := by
  simp only [List.find?_eq_none, Option.isNone_iff_eq_none, ne_eq]

/-- No symbol of a text lacks its value in the context, where the names listed for the text have
values. -/
theorem not_missing_of_evaluateWith
    (held : ∀ name ∈ Placeholder.names expression, context name ≠ none)
    {known : String → Option Binary64} {fault : Fault}
    (h : evaluateWith known context expression = .error fault) (name : String) :
    fault ≠ .missingContextualValue name := by
  intro same
  subst same
  rcases error_of_evaluateWith h with lexical | ⟨lexemes, s, read, hs, missing⟩ | numeric
  · cases lexical
  · cases s with
    | reference other => cases unbound_of_symbolValue missing
    | placeholder other =>
      have listed : other ∈ Placeholder.names expression := (Lexeme.mem_names_iff read).mpr hs
      obtain ⟨x, hx⟩ := Option.ne_none_iff_exists'.mp (held other listed)
      simp only [symbolValue, hx] at missing
      cases missing
  · cases numeric

/-- **Behind the first look at the names no placeholder is met without a value**: not for a variable,
and not for a lexeme of the text. -/
theorem not_missing_of_held (held : ∀ name ∈ Placeholder.names expression, context name ≠ none)
    {failure : Failure} (h : evaluate vars context expression = .error failure) (name : String) :
    failure.fault ≠ .missingContextualValue name := by
  unfold evaluate at h
  simp only [find?_missing_eq_none.mpr held] at h
  cases resolves : resolve vars with
  | error failure' =>
    rw [resolves] at h
    cases h
    exact (resolving_of_resolve resolves).ne_missing name
  | ok values =>
    simp only [resolves] at h
    split at h
    · rename_i fault fails
      cases h
      exact not_missing_of_evaluateWith held fails name
    · cases h

/-- A failure about a missing name is that of the first look at the names. -/
theorem firstMissing_of_evaluate {failure : Failure} {name : String}
    (h : evaluate vars context expression = .error failure)
    (about : failure.fault = .missingContextualValue name) :
    failure = .plain (.missingContextualValue name) ∧ FirstMissing expression context name := by
  cases found : (Placeholder.names expression).find? fun name => (context name).isNone with
  | some missing =>
    unfold evaluate at h
    simp only [found] at h
    cases h
    cases about
    exact ⟨rfl, find?_missing_iff.mp found⟩
  | none =>
    have held := find?_missing_eq_none.mp found
    exact absurd about (not_missing_of_held held h name)

/-- **A missing name is reported exactly if it is the first that the context lacks.** -/
theorem evaluate_missing_iff {name : String} :
    evaluate vars context expression = .error (.plain (.missingContextualValue name)) ↔
      FirstMissing expression context name := by
  constructor
  · exact fun h => (firstMissing_of_evaluate h rfl).2
  · intro first
    unfold evaluate
    simp only [find?_missing_iff.mpr first]

end

/-- **A formula depends on its context only through its own placeholders**, whatever its text and the
variables are: contexts that agree on them give the same outcome, and a missing name is reported
exactly if it is the first of them that the context lacks. It is never laid to a variable. -/
theorem depends_on_placeholders_only (vars : List Variable) (expression : String) :
    (∀ context context', Agree expression context context' →
      evaluate vars context expression = evaluate vars context' expression) ∧
      (∀ context name,
        evaluate vars context expression = .error (.plain (.missingContextualValue name)) ↔
          FirstMissing expression context name) ∧
      ∀ context failure name, evaluate vars context expression = .error failure →
        failure.fault = .missingContextualValue name →
        failure = .plain (.missingContextualValue name) :=
  ⟨fun _ _ => evaluate_congr, fun _ _ => evaluate_missing_iff,
    fun _ _ _ fails about => (firstMissing_of_evaluate fails about).1⟩

end Formula

end Reckoner
