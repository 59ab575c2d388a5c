import Reckoner.Command.Run
import Reckoner.Proofs.Formula.Context

/-!
# Which malformations are reported

A malformation is about a run of digits and points, or about the number of operands
(`Malformation.Reported`). The definitions have others, for states that they do not get into: a
parenthesis in postfix order, a symbol that finds no value, a token in the place of a symbol, a walk
without a variable, and beside these a placeholder that was looked for and is missing, and a variable
of a resolved book without a value. Each is kept out by something of its own:

* a text without symbols yields none (`Token.lexical_of_ofText`);
* a postfix order holds no parentheses (`Postfix.numeric_of_ofTokens`);
* what is replaced in a formula are its symbols, and never a token (`Formula.evaluateWith_bind`);
* a walk has as many values as references, and a variable under way until it ends, which the recursive
  reading of definitions shows (`Fault.Resolving`);
* the names listed for a text are those of its lexemes (`Formula.not_missing_of_held`);
* resolving a book gives every variable a value (`Formula.exists_tableValue`).

**So no request ever shows one of them** (`malformations_reported`).
-/

namespace Reckoner

/-! ## 1. What is reported -/

/-- **The malformations that are reported**, with their wording. -/
inductive Malformation.Reported : Malformation → String → Prop
  | invalidNumber (run : String) : Reported (.invalidNumber run) ("invalid number '" ++ run ++ "'")
  | missingOperand (o : Operator) :
      Reported (.missingOperand o)
        ("operator '" ++ String.singleton o.symbol ++ "' is missing an operand")
  | empty : Reported .empty "empty expression"
  | leftOver (count : Nat) :
      Reported (.leftOver count) (toString count ++ " values left without an operator")

/-- A fault that is no malformation, or one that is reported. -/
def Fault.Reported (fault : Fault) : Prop :=
  ∀ how, fault = .malformed how → how.Reported how.message

section

variable {fault : Fault}

theorem Fault.Lexical.reported (h : fault.Lexical) : fault.Reported := by
  intro how same
  cases h with
  | invalidCharacter => cases same
  | invalidNumber run =>
    cases same
    exact .invalidNumber run

theorem Fault.Numeric.reported (h : fault.Numeric) : fault.Reported := by
  intro how same
  cases h with
  | mismatchedParentheses | divisionByZero | nonFiniteResult => cases same
  | missingOperand o =>
    cases same
    exact .missingOperand o
  | empty =>
    cases same
    exact .empty
  | leftOver count =>
    cases same
    exact .leftOver count

theorem Fault.Resolving.reported (h : fault.Resolving) : fault.Reported := by
  cases h with
  | lexical h => exact h.reported
  | numeric h => exact h.reported
  | undefinedVariable | nonNumericConstant | circularDependency | duplicateVariable =>
    intro how same
    cases same

theorem Symbol.reported_unbound (s : Symbol) : s.unbound.Reported := by
  intro how same
  cases s <;> cases same

end

/-! ## 2. Texts and tokens -/

/-- **A text without symbols that yields no tokens cannot be read**: none of its lexemes is to be
replaced. -/
theorem Token.lexical_of_ofText {text : String} {fault : Fault} (h : ofText text = .error fault) :
    fault.Lexical := by
  unfold ofText at h
  rcases bind_eq_error h with unread | ⟨lexemes, read, unbound⟩
  · exact Lexeme.lexical_of_ofText unread
  · -- a lexeme that finds no value is a symbol, and the dialect has none
    obtain ⟨s, hs, -⟩ := Lexeme.exists_of_bind_error unbound
    have admitted : Dialect.numeric.admits s = true := Lexeme.ofText_admits read hs
    cases s <;> cases admitted

theorem reported_of_evaluateText {text : String} {fault : Fault}
    (h : evaluateText text = .error fault) : fault.Reported := by
  unfold evaluateText at h
  rcases bind_eq_error h with unread | ⟨tokens, -, fails⟩
  · exact (Token.lexical_of_ofText unread).reported
  · exact (Token.numeric_of_evaluate fails).reported

/-! ## 3. Variables and formulas -/

section

variable {vars : List Variable} {context : Context} {expression : String} {failure : Failure}

/-- **After any requests** a name without a value has a fault of resolving. -/
theorem Resolution.resolving_of_valueOf {r : Resolution} (started : start vars = .ok r)
    {requests : List String} {name : String}
    (h : ((r.after requests).valueOf name).2 = .error failure) : failure.fault.Resolving := by
  have consistent := after_consistent (consistent_of_start started) requests
  rw [(valueOf_spec consistent name).1] at h
  exact resolving_of_naive h

theorem Resolution.resolving_of_all {r : Resolution} (started : start vars = .ok r)
    {requests : List String} (h : (r.after requests).all = .error failure) :
    failure.fault.Resolving := by
  have consistent := after_consistent (consistent_of_start started) requests
  rw [all_spec consistent] at h
  obtain ⟨v, -, fails⟩ := exists_of_mapM_error h
  exact resolving_of_naive (map_eq_error fails)

theorem Formula.reported_of_evaluate (h : evaluate vars context expression = .error failure) :
    failure.fault.Reported := by
  rcases error_of_evaluate h with unresolved | ⟨fault, rfl, lexical | ⟨s, rfl⟩ | numeric⟩
  · exact (resolving_of_resolve unresolved).reported
  · exact lexical.reported
  · exact s.reported_unbound
  · exact numeric.reported

end

/-! ## 4. The listing of a book -/

/-- Where a book is resolved, every variable of it has a value. -/
theorem Book.known_of_resolve {b : Book} {values : List (String × Binary64)}
    (resolves : b.resolve = .ok values) :
    ∀ v ∈ b.vars, ∃ x, Formula.tableValue values v.name.text = some x := by
  intro v hv
  have defined : v.name.text ∈ namesOf b.vars := mem_namesOf.mpr ⟨v, hv, rfl⟩
  exact Formula.exists_tableValue resolves defined

namespace Command

/-- Where all variables have values, all of them are listed. -/
theorem listing_of_known {values : String → Option Binary64} (width : Nat) :
    ∀ {vars : List Variable}, (∀ v ∈ vars, ∃ x, values v.name.text = some x) →
      ∃ listed, listing values width vars = (listed, none) ∧ listed.length = vars.length
  | [], _ => ⟨[], rfl, rfl⟩
  | v :: vars, known => by
      obtain ⟨x, hx⟩ := known v List.mem_cons_self
      obtain ⟨listed, rest, all⟩ := listing_of_known width
        fun w hw => known w (List.mem_cons_of_mem _ hw)
      refine ⟨listingLine width v x :: listed, ?_, ?_⟩
      · simp only [listing, hx, rest]
      · simp [all]

/-- **A resolved book is listed to its end**, each variable on a line. -/
theorem runResolve_of_resolve {b : Book} {values : List (String × Binary64)}
    (resolves : b.resolve = .ok values) :
    ∃ listed, runResolve b = .ok (.success (lines listed) "") ∧ listed.length = b.vars.length := by
  have known := Book.known_of_resolve resolves
  let width := (b.vars.map fun v => v.name.text.length).foldl max 0
  obtain ⟨listed, complete, all⟩ := listing_of_known width known
  have complete' : listing (fun name => (Std.HashMap.ofList values)[name]?) width b.vars =
      (listed, none) := complete
  refine ⟨listed, ?_, all⟩
  unfold runResolve
  rw [resolves]
  simp only [Except.mapError, bind, Except.bind, width] at complete' ⊢
  rw [complete']
  rfl

end Command

/-- **No malformation is shown but those that are reported**, by any text, list of tokens, list of
variables, context and history of requests, be it laid to a variable or not. Where a context has the
names listed for a formula, the formula fails for no missing one; and a book that is resolved is listed
to its end. -/
theorem malformations_reported (text : String) (tokens : List Token) (vars : List Variable)
    (context : Context) :
    (∀ fault, Token.ofText text = .error fault → fault.Reported) ∧
      (∀ dialect fault, Lexeme.ofText dialect text = .error fault → fault.Reported) ∧
      (∀ fault, Token.evaluate tokens = .error fault → fault.Reported) ∧
      (∀ order fault, Postfix.ofTokens tokens = .ok order → Postfix.value order = .error fault →
        fault.Reported) ∧
      (∀ fault, evaluateText text = .error fault → fault.Reported) ∧
      (∀ failure, resolve vars = .error failure → failure.fault.Reported) ∧
      (∀ r, Resolution.start vars = .ok r → ∀ requests failure,
        (∀ name, ((r.after requests).valueOf name).2 = .error failure → failure.fault.Reported) ∧
          ((r.after requests).all = .error failure → failure.fault.Reported)) ∧
      (∀ failure, Formula.evaluate vars context text = .error failure → failure.fault.Reported) ∧
      ((∀ name ∈ Placeholder.names text, context name ≠ none) → ∀ failure,
        Formula.evaluate vars context text = .error failure →
          ∀ name, failure.fault ≠ .missingContextualValue name) ∧
      ∀ (b : Book) (values : List (String × Binary64)), b.resolve = .ok values →
        (∀ v ∈ b.vars, ∃ x, (Std.HashMap.ofList values)[v.name.text]? = some x) ∧
          ∃ listed, Command.runResolve b = .ok (.success (Command.lines listed) "") ∧
            listed.length = b.vars.length := by
  refine ⟨?_, ?_, ?_, ?_, ?_, ?_, ?_, ?_, ?_, ?_⟩
  · exact fun _ fails => (Token.lexical_of_ofText fails).reported
  · exact fun _ _ fails => (Lexeme.lexical_of_ofText fails).reported
  · exact fun _ fails => (Token.numeric_of_evaluate fails).reported
  · exact fun _ _ ordered fails => (Postfix.numeric_of_ofTokens ordered fails).reported
  · exact fun _ fails => reported_of_evaluateText fails
  · exact fun _ fails => (resolving_of_resolve fails).reported
  · intro r started requests failure
    exact ⟨fun name fails => (Resolution.resolving_of_valueOf started fails).reported,
      fun fails => (Resolution.resolving_of_all started fails).reported⟩
  · exact fun _ fails => Formula.reported_of_evaluate fails
  · exact fun held _ fails => Formula.not_missing_of_held held fails
  · intro b values resolves
    exact ⟨Book.known_of_resolve resolves, Command.runResolve_of_resolve resolves⟩

end Reckoner
