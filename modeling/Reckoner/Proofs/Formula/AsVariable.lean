import Reckoner.Proofs.Formula.Inlining
import Reckoner.Proofs.Resolution.Blame

/-!
# A formula as a variable

A text without placeholders may be evaluated as a formula, or be given a new name and resolved with
the other variables. **Both come to the same** (`Formula.evaluate_iff_resolve`): the same number,
which is then listed behind those of the other variables, or the same fault, which is then laid to
the new name.

The two bind differently. A formula looks its references up among values that are all there already;
the new variable follows them along a path on which it stands itself. None of them leads back to it:
from there it would lead on to itself, and what has a value depends on itself nowhere
(`Means.acyclic`). And the definition that is added takes no value away (`Means.append`).
-/

namespace Reckoner

open Relation (TransGen ReflTransGen)

section

variable {vars : List Variable} {name : String} {x : Binary64}

/-! ## 1. One more definition -/

/-- A definition that is there is not hidden by one that is added behind it. -/
theorem definition?_append {v : Variable} (h : definition? vars name = some v)
    (more : List Variable) : definition? (vars ++ more) name = some v := by
  unfold definition? at h ⊢
  rw [List.find?_append, h]
  rfl

/-- **Definitions that are added take no value away.** -/
theorem Means.append (h : Means vars name x) (more : List Variable) :
    Means (vars ++ more) name x := by
  induction h with
  | constant found kind read => exact .constant (definition?_append found more) kind read
  | dynamic found kind read _ evaluated ih =>
    exact .dynamic (definition?_append found more) kind read ih evaluated

end

section

variable {vars : List Variable} {values : List (String × Binary64)} {w : Variable}

theorem definition?_added (fresh : w.name.text ∉ namesOf vars) :
    definition? (vars ++ [w]) w.name.text = some w := by
  have missing := definition?_eq_none.mpr fresh
  unfold definition? at missing ⊢
  rw [List.find?_append, missing]
  simp

/-! ## 2. The added definition -/

/-- What the expression of an added variable refers to has, along its path, the value that a formula
finds for it, or is undefined there as well. -/
theorem naive_added {lexemes : List Lexeme} {other : String} (resolves : resolve vars = .ok values)
    (fresh : w.name.text ∉ namesOf vars) (kind : w.kind = .dynamic)
    (read : Lexeme.ofText .dynamic w.text = .ok lexemes)
    (elsewhere : w.name.text ∉ Lexeme.references lexemes)
    (refers : other ∈ Lexeme.references lexemes) (context : Context) :
    naive (vars ++ [w]) [w.name.text] other =
      (Formula.symbolValue (Formula.tableValue values) context (.reference other)).mapError
        Failure.plain := by
  cases found : Formula.tableValue values other with
  | some x =>
    have hx := ((Formula.tableValue_iff resolves other x).mp found).append [w]
    have step : RefersTo (vars ++ [w]) w.name.text other :=
      ⟨w, lexemes, definition?_added fresh, kind, read, refers⟩
    rw [hx.naive fun p hp leads => ?_]
    · simp only [Formula.symbolValue, found]
      rfl
    · -- it would depend on itself by way of the added variable
      rw [List.mem_singleton.mp hp] at leads
      exact hx.acyclic (TransGen.tail' leads step)
  | none =>
    have undefined : other ∉ namesOf (vars ++ [w]) := by
      intro defined
      rw [namesOf, List.map_append, List.mem_append] at defined
      rcases defined with defined | own
      · obtain ⟨x, hx⟩ := Formula.exists_tableValue resolves defined
        cases found.symm.trans hx
      · rw [List.map_singleton, List.mem_singleton] at own
        exact elsewhere (own ▸ refers)
    rw [naive_undefined (definition?_eq_none.mpr undefined)]
    simp only [Formula.symbolValue, found]
    rfl

/-- **The value of an added variable** is that of its text over the values there are, and so is its
fault. -/
theorem naive_eq_evaluate (resolves : resolve vars = .ok values)
    (fresh : w.name.text ∉ namesOf vars) (kind : w.kind = .dynamic)
    (elsewhere : ∀ lexemes, Lexeme.ofText .dynamic w.text = .ok lexemes →
      w.name.text ∉ Lexeme.references lexemes) (context : Context) :
    naive (vars ++ [w]) [] w.name.text =
      (do
        let lexemes ← Lexeme.ofText .dynamic w.text
        let tokens ← Lexeme.bind (Formula.symbolValue (Formula.tableValue values) context) lexemes
        Token.evaluate tokens).mapError (Failure.within w.name.text) := by
  rw [naive_defined (definition?_added fresh) List.not_mem_nil, kind]
  cases read : Lexeme.ofText .dynamic w.text with
  | error fault => rfl
  | ok lexemes =>
    have bound : Lexeme.bind (Lexeme.referenceValue
        (fun other => Failure.within w.name.text (.missingContextualValue other))
        fun other => (naive (vars ++ [w]) [w.name.text] other).mapError
          (Failure.blame w.name.text)) lexemes =
        (Lexeme.bind (Formula.symbolValue (Formula.tableValue values) context) lexemes).mapError
          (Failure.within w.name.text) := by
      rw [← Lexeme.bind_mapError]
      refine Lexeme.bind_congr fun s hs => ?_
      obtain ⟨other, ho, rfl⟩ := reference_eq (Lexeme.no_placeholder read) hs
      rw [Lexeme.referenceValue,
        naive_added resolves fresh kind read (elsewhere lexemes read) ho context]
      cases Formula.symbolValue (Formula.tableValue values) context (.reference other) <;> rfl
    show expressionValue w.name.text (naive (vars ++ [w]) [w.name.text]) lexemes = _
    unfold expressionValue
    rw [bound]
    show _ = (Lexeme.bind (Formula.symbolValue (Formula.tableValue values) context) lexemes >>=
      Token.evaluate).mapError _
    cases Lexeme.bind (Formula.symbolValue (Formula.tableValue values) context) lexemes <;> rfl

/-! ## 3. Resolving with the added definition -/

/-- Values that are listed are listed as before when definitions are added. -/
theorem naiveAll_append (more : List Variable) : ∀ {vs : List Variable}
    {values : List (String × Binary64)}, naiveAll vars vs = .ok values →
      naiveAll (vars ++ more) vs = .ok values
  | [], _, h => h
  | v :: vs, values, h => by
      unfold naiveAll at h ⊢
      rw [List.mapM_cons] at h ⊢
      obtain ⟨entry, first, h⟩ := bind_eq_ok h
      obtain ⟨others, rest, h⟩ := bind_eq_ok h
      cases h
      obtain ⟨x, value, rfl⟩ := map_eq_ok first
      have kept := means_iff_naive.mp ((means_iff_naive.mpr value).append more)
      have rest' := naiveAll_append more rest
      unfold naiveAll at rest'
      rw [kept, rest']
      rfl

/-- The variables there were keep their values, and the one that is added comes behind them. -/
theorem resolve_added (resolves : resolve vars = .ok values)
    (fresh : w.name.text ∉ namesOf vars) :
    resolve (vars ++ [w]) =
      (naive (vars ++ [w]) [] w.name.text).map fun x => values ++ [(w.name.text, x)] := by
  have distinct := distinct_of_resolve resolves
  have distinct' : (namesOf (vars ++ [w])).Nodup := by
    simpa [namesOf] using List.Nodup.concat fresh distinct
  rw [resolve_eq_naiveAll distinct] at resolves
  have before := naiveAll_append [w] resolves
  rw [resolve_eq_naiveAll distinct']
  unfold naiveAll at before ⊢
  rw [List.mapM_append, before, List.mapM_cons, List.mapM_nil]
  cases naive (vars ++ [w]) [] w.name.text <;> rfl

/-- **A formula and a variable of the same text come to the same.** Where the variables can be
resolved, a text without placeholders has a value as a formula exactly if resolving finds this value
for it under a new name that it does not refer to, and the others as before; and it has a fault as a
formula exactly if resolving fails with this fault in the new variable. -/
theorem Formula.evaluate_iff_resolve (resolves : resolve vars = .ok values) {expression : String}
    (plain : Placeholder.spans expression = []) (context : Context) (name : Name)
    (fresh : name.text ∉ namesOf vars)
    (elsewhere : ∀ lexemes, Lexeme.ofText .formula expression = .ok lexemes →
      name.text ∉ Lexeme.references lexemes) :
    (∀ x, (evaluate vars context expression).map Evaluation.value = .ok x ↔
      resolve (vars ++ [⟨name, .dynamic, expression⟩]) = .ok (values ++ [(name.text, x)])) ∧
    ∀ failure, (evaluate vars context expression).map Evaluation.value = .error failure ↔
      ∃ fault, failure = .plain fault ∧
        resolve (vars ++ [⟨name, .dynamic, expression⟩]) = .error (.within name.text fault) := by
  have same : Dialect.formula.references = Dialect.dynamic.references := rfl
  have read : Lexeme.ofText .formula expression = Lexeme.ofText .dynamic expression :=
    Lexeme.ofText_congr same plain
  have held : ∀ other ∈ Placeholder.names expression, (context other).isSome = true := by
    intro other ho
    rw [Placeholder.mem_names, plain] at ho
    cases ho
  rw [evaluate_of_resolve resolves held,
    resolve_added (w := ⟨name, .dynamic, expression⟩) resolves fresh,
    naive_eq_evaluate (w := ⟨name, .dynamic, expression⟩) resolves fresh rfl
      (fun lexemes h => elsewhere lexemes (read.trans h)) context, read]
  generalize (do
    let lexemes ← Lexeme.ofText .dynamic expression
    let tokens ← Lexeme.bind (symbolValue (tableValue values) context) lexemes
    Token.evaluate tokens) = outcome
  cases outcome with
  | ok x =>
    refine ⟨fun y => ?_, fun failure => ⟨fun h => ?_, fun ⟨fault, _, h⟩ => ?_⟩⟩
    · simp [Except.map, Except.mapError]
    · cases h
    · cases h
  | error fault =>
    refine ⟨fun y => ⟨fun h => ?_, fun h => ?_⟩, fun failure => ?_⟩
    · cases h
    · cases h
    · simp [Except.map, Except.mapError, eq_comm]

end

/-- A constant. -/
def nilOnly : List Variable :=
  [⟨⟨"NIL", by decide⟩, .constant, "0"⟩]

/-- Dividing by zero is a fault of the formula, and of the variable with its text. -/
theorem nilOnly_divided :
    (Formula.evaluate nilOnly (fun _ => none) "NIL / NIL").map Evaluation.value =
      .error (.plain .divisionByZero) ∧
    resolve (nilOnly ++ [⟨⟨"QUOTIENT", by decide⟩, .dynamic, "NIL / NIL"⟩]) =
      .error (.within "QUOTIENT" .divisionByZero) := by
  have resolves : resolve nilOnly = .ok [("NIL", ⟨0⟩)] := by
    rw [resolve_eq_naiveAll (by decide)]
    cbv
  have fails : resolve (nilOnly ++ [⟨⟨"QUOTIENT", by decide⟩, .dynamic, "NIL / NIL"⟩]) =
      .error (.within "QUOTIENT" .divisionByZero) := by
    rw [resolve_eq_naiveAll (by decide)]
    cbv
  have read : Lexeme.ofText .formula "NIL / NIL" = .ok [.symbol (.reference "NIL"),
      .token (.operator .divide), .symbol (.reference "NIL")] := by cbv
  have elsewhere : ∀ lexemes, Lexeme.ofText .formula "NIL / NIL" = .ok lexemes →
      "QUOTIENT" ∉ Lexeme.references lexemes := by
    intro lexemes h
    cases read.symm.trans h
    decide
  have same := Formula.evaluate_iff_resolve resolves (by cbv) (fun _ => none)
    ⟨"QUOTIENT", by decide⟩ (by decide) elsewhere
  exact ⟨(same.2 _).mpr ⟨_, rfl, fails⟩, fails⟩

end Reckoner
