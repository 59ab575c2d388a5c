import Reckoner.Proofs.Faults

/-!
# Blame is sound

A failure names the variable it lies in, and a cause. `Explained` says what this may be believed
for, without following the walk that met it: the variable is dynamic and reachable from the name
that was asked for, and its own expression shows the cause (`Explains`) - it cannot be read, or it
refers to what is not there, to a constant that is no number or to a variable that leads back, or
else all it refers to has a value and these values have none together. A failure that names no
variable is about the name asked for: it is not defined, or it is a constant and no number.

**Every failure is explained** (`Resolution.failure_explained`), after any requests. The proof is an
induction along the recursive reading: what lies on the path leads to the name in hand, so a cycle
that closes there is one.
-/

namespace Reckoner

open Relation (TransGen ReflTransGen)

/-! ## 1. What explains a failure -/

/-- A name is that of a constant whose text is no number. -/
def NonNumeric (vars : List Variable) (name : String) : Prop :=
  ∃ v, definition? vars name = some v ∧ v.kind = .constant ∧ Number.ofConstant? v.text = none

/-- **The expression of `owner` shows a fault**, when `answer` gives the answers to the names it
refers to. -/
def Explains (vars : List Variable) (answer : String → Except Failure Binary64) (owner : Variable) :
    Fault → Prop
  | .undefinedVariable other => RefersTo vars owner.name.text other ∧ other ∉ namesOf vars
  | .nonNumericConstant other => RefersTo vars owner.name.text other ∧ NonNumeric vars other
  | .circularDependency other =>
    RefersTo vars owner.name.text other ∧ ReflTransGen (RefersTo vars) other owner.name.text
  | .invalidCharacter c position =>
    Lexeme.ofText .dynamic owner.text = .error (.invalidCharacter c position)
  | .malformed (.invalidNumber run) =>
    Lexeme.ofText .dynamic owner.text = .error (.malformed (.invalidNumber run))
  | fault => ∃ lexemes value, Lexeme.ofText .dynamic owner.text = .ok lexemes ∧
      (∀ other ∈ Lexeme.references lexemes, answer other = .ok (value other)) ∧
      Token.evaluate (lexemes.map (Lexeme.fill value)) = .error fault

/-- **A failure of a name is explained** by the name itself, or by the dynamic variable it is laid
to. -/
inductive Explained (vars : List Variable) (answer : String → Except Failure Binary64)
    (name : String) : Failure → Prop
  | undefined (missing : name ∉ namesOf vars) :
      Explained vars answer name (.plain (.undefinedVariable name))
  | nonNumeric (rejected : NonNumeric vars name) :
      Explained vars answer name (.plain (.nonNumericConstant name))
  | within {v : Variable} {owner : String} {fault : Fault}
      (reached : ReflTransGen (RefersTo vars) name owner)
      (found : definition? vars owner = some v) (kind : v.kind = .dynamic)
      (cause : Explains vars answer v fault) : Explained vars answer name (.within owner fault)

section

variable {vars : List Variable} {answer : String → Except Failure Binary64} {owner : Variable}
  {fault : Fault}

/-- A text that cannot be read explains its fault. -/
theorem Explains.of_lexical (read : Lexeme.ofText .dynamic owner.text = .error fault) :
    Explains vars answer owner fault := by
  cases Lexeme.lexical_of_ofText read with
  | invalidCharacter => exact read
  | invalidNumber => exact read

/-- An expression explains why the values of its references have none together. -/
theorem Explains.of_numeric {lexemes : List Lexeme} {value : String → Binary64}
    (read : Lexeme.ofText .dynamic owner.text = .ok lexemes)
    (known : ∀ other ∈ Lexeme.references lexemes, answer other = .ok (value other))
    (fails : Token.evaluate (lexemes.map (Lexeme.fill value)) = .error fault) :
    Explains vars answer owner fault := by
  cases Token.numeric_of_evaluate fails <;> exact ⟨lexemes, value, read, known, fails⟩

/-! ## 2. Along a path -/

/-- Where an expression has no value, a reference of it has none, or all have and their values have
none together. -/
theorem expressionValue_error {name : String} {value : String → Except Failure Binary64}
    {lexemes : List Lexeme} {failure : Failure}
    (hp : ∀ other, Lexeme.symbol (.placeholder other) ∉ lexemes)
    (h : expressionValue name value lexemes = .error failure) :
    (∃ other ∈ Lexeme.references lexemes, ∃ inner, value other = .error inner ∧
      failure = inner.blame name) ∨
    ((∀ other ∈ Lexeme.references lexemes, value other = .ok (valueD value other)) ∧
      ∃ fault, Token.evaluate (lexemes.map (Lexeme.fill (valueD value))) = .error fault ∧
        failure = .within name fault) := by
  by_cases known : ∀ other ∈ Lexeme.references lexemes, value other = .ok (valueD value other)
  · rw [expressionValue_fill hp known] at h
    cases he : Token.evaluate (lexemes.map (Lexeme.fill (valueD value))) with
    | ok x => rw [he] at h; cases h
    | error fault =>
      rw [he] at h
      cases h
      exact .inr ⟨known, fault, rfl, rfl⟩
  · refine .inl ?_
    unfold expressionValue at h
    cases hb : Lexeme.bind (Lexeme.referenceValue
      (fun other => Failure.within name (.missingContextualValue other))
      fun other => (value other).mapError (Failure.blame name)) lexemes with
    | ok ts => exact absurd (known_of_bind hb) known
    | error failure' =>
      rw [hb] at h
      cases h
      obtain ⟨s, hs, hv⟩ := Lexeme.exists_of_bind_error hb
      obtain ⟨other, hm, rfl⟩ := reference_eq hp hs
      cases hv' : value other with
      | ok x => simp [Lexeme.referenceValue, hv', Except.mapError] at hv
      | error inner =>
        refine ⟨other, hm, inner, hv', ?_⟩
        simpa [Lexeme.referenceValue, hv', Except.mapError] using hv.symm

end

/-- **A failure along a path is explained, or the path closes a cycle**, where every name on the
path leads to the name in hand. -/
theorem explained_of_naive (vars : List Variable) (path : List String) (name : String)
    {failure : Failure} (leads : ∀ p ∈ path, ReflTransGen (RefersTo vars) p name)
    (h : naive vars path name = .error failure) :
    (name ∈ path ∧ failure = .plain (.circularDependency name)) ∨
      Explained vars (naive vars []) name failure := by
  fun_induction naive vars path name generalizing failure with
  | case1 path name missing =>
    cases h
    exact .inr (.undefined (definition?_eq_none.mp missing))
  | case2 path name v found onPath =>
    cases h
    exact .inl ⟨onPath, rfl⟩
  | case3 => cases h
  | case4 path name v found _ kind read =>
    cases h
    exact .inr (.nonNumeric ⟨v, found, kind, read⟩)
  | case5 path name v found fresh kind lexemes read ih =>
    refine .inr ?_
    obtain rfl := definition?_name found
    have step : ∀ other ∈ Lexeme.references lexemes, RefersTo vars v.name.text other :=
      fun other hm => ⟨v, lexemes, found, kind, read, hm⟩
    rcases expressionValue_error (Lexeme.no_placeholder read) h with
      ⟨other, hm, inner, fails, rfl⟩ | ⟨known, fault, fails, rfl⟩
    · -- a reference that lies on the path leads back here, as everything on it does
      have leads' : ∀ p ∈ v.name.text :: path, ReflTransGen (RefersTo vars) p v.name.text :=
        List.forall_mem_cons.mpr ⟨.refl, leads⟩
      rcases ih other (fun p hm' => (leads' p hm').tail (step other hm)) fails with
        ⟨onPath, rfl⟩ | explained
      · exact .within .refl found kind ⟨step other hm, leads' other onPath⟩
      · cases explained with
        | undefined missing => exact .within .refl found kind ⟨step other hm, missing⟩
        | nonNumeric rejected => exact .within .refl found kind ⟨step other hm, rejected⟩
        | within reached found' kind' cause =>
          exact .within (.head (step other hm) reached) found' kind' cause
    · -- a value found along the path is the value of the name
      have known' : ∀ other ∈ Lexeme.references lexemes,
          naive vars [] other = .ok (valueD (naive vars (v.name.text :: path)) other) :=
        fun other hm => means_iff_naive.mp (means_of_naive _ _ (known other hm))
      exact .within .refl found kind (.of_numeric read known' fails)
  | case6 path name v found fresh kind fault read =>
    cases h
    exact .inr (.within .refl found kind (.of_lexical read))

/-! ## 3. All variables, and the faults there can be -/

section

variable {vars : List Variable} {failure : Failure}

/-- Where variables with distinct names have no values, the failure of one of them is explained. -/
theorem explained_of_resolve (distinct : (namesOf vars).Nodup) (h : resolve vars = .error failure) :
    ∃ v ∈ vars, Explained vars (naive vars []) v.name.text failure := by
  rw [resolve_eq_naiveAll distinct] at h
  obtain ⟨v, hv, fails⟩ := exists_of_mapM_error h
  refine ⟨v, hv, ?_⟩
  exact (explained_of_naive vars [] _ (fun p hp => absurd hp List.not_mem_nil)
    (map_eq_error fails)).resolve_left fun closed => absurd closed.1 List.not_mem_nil

end

/-- The faults of resolving variables. -/
inductive Fault.Resolving : Fault → Prop
  | lexical {fault : Fault} (h : fault.Lexical) : Resolving fault
  | numeric {fault : Fault} (h : fault.Numeric) : Resolving fault
  | undefinedVariable (name : String) : Resolving (.undefinedVariable name)
  | nonNumericConstant (name : String) : Resolving (.nonNumericConstant name)
  | circularDependency (name : String) : Resolving (.circularDependency name)
  | duplicateVariable (name : String) : Resolving (.duplicateVariable name)

/-- Resolving variables has nothing to do with a context. -/
theorem Fault.Resolving.ne_missing {fault : Fault} (h : fault.Resolving) (name : String) :
    fault ≠ .missingContextualValue name := by
  rintro rfl
  rcases h with lexical | numeric
  · cases lexical
  · cases numeric

section

variable {vars : List Variable} {failure : Failure}

/-- What explains a fault of an expression leaves these faults only. -/
theorem Explains.resolving {answer : String → Except Failure Binary64} {owner : Variable}
    {fault : Fault} (h : Explains vars answer owner fault) : fault.Resolving := by
  unfold Explains at h
  split at h
  · exact .undefinedVariable _
  · exact .nonNumericConstant _
  · exact .circularDependency _
  · exact .lexical (.invalidCharacter _ _)
  · exact .lexical (.invalidNumber _)
  · obtain ⟨lexemes, value, -, -, fails⟩ := h
    exact .numeric (Token.numeric_of_evaluate fails)

theorem Explained.resolving {answer : String → Except Failure Binary64} {name : String}
    (h : Explained vars answer name failure) : failure.fault.Resolving := by
  cases h with
  | undefined => exact .undefinedVariable name
  | nonNumeric => exact .nonNumericConstant name
  | within reached found kind cause => exact cause.resolving

/-- **A name without a value** fails with a fault of resolving. -/
theorem resolving_of_naive {name : String} (h : naive vars [] name = .error failure) :
    failure.fault.Resolving := by
  rcases explained_of_naive vars [] name (fun p hp => absurd hp List.not_mem_nil) h with
    ⟨closed, -⟩ | explained
  · exact absurd closed List.not_mem_nil
  · exact explained.resolving

namespace Resolution

theorem index_error {fault : Fault} :
    ∀ {vars : List Variable} {definitions : Std.HashMap String Variable},
      index definitions vars = .error fault → ∃ name, fault = .duplicateVariable name
  | [], _, h => by cases h
  | v :: vs, definitions, h => by
      unfold index at h
      split at h
      · cases h
        exact ⟨_, rfl⟩
      · exact index_error h

/-- A resolution does not start over a name that is defined twice. -/
theorem start_error (h : start vars = .error failure) :
    ∃ name, failure = .plain (.duplicateVariable name) := by
  unfold start at h
  cases indexed : index ∅ vars with
  | ok definitions =>
    rw [indexed] at h
    cases h
  | error fault =>
    rw [indexed] at h
    cases h
    obtain ⟨name, rfl⟩ := index_error indexed
    exact ⟨name, rfl⟩

end Resolution

/-- **Variables without values** fail with a fault of resolving. -/
theorem resolving_of_resolve (h : resolve vars = .error failure) : failure.fault.Resolving := by
  rcases bind_eq_error (x := Resolution.start vars) h with unstarted | ⟨r, started, -⟩
  · obtain ⟨name, rfl⟩ := Resolution.start_error unstarted
    exact .duplicateVariable name
  · have distinct := Resolution.distinct_of_start started
    obtain ⟨v, -, explained⟩ := explained_of_resolve distinct h
    exact explained.resolving

end

/-! ## 4. After any requests -/

namespace Resolution

/-- **Blame is sound**: over distinct names a resolution starts, and after any requests the failure
of any name is explained, by answers that the resolution gives itself. -/
theorem failure_explained (vars : List Variable) (distinct : (namesOf vars).Nodup) :
    ∃ r, start vars = .ok r ∧ ∀ (requests : List String) (name : String) (failure : Failure),
      ((r.after requests).valueOf name).2 = .error failure →
        Explained vars (fun other => ((r.after requests).valueOf other).2) name failure := by
  obtain ⟨r, hs, hr⟩ := start_spec distinct
  refine ⟨r, hs, fun requests name failure h => ?_⟩
  have answers : (fun other => ((r.after requests).valueOf other).2) = naive vars [] :=
    funext fun other => (valueOf_spec (after_consistent hr requests) other).1
  rw [answers]
  have h' : naive vars [] name = .error failure := by rw [← answers]; exact h
  exact (explained_of_naive vars [] name (fun p hm => absurd hm List.not_mem_nil) h').resolve_left
    fun closed => absurd closed.1 List.not_mem_nil

/-- A variable, and another one that divides by zero. -/
def divided : List Variable :=
  [⟨⟨"TOTAL", by decide⟩, .dynamic, "SHARE - ZERO"⟩,
    ⟨⟨"SHARE", by decide⟩, .dynamic, "ZERO / ZERO"⟩, ⟨⟨"ZERO", by decide⟩, .constant, "0"⟩]

/-- The division is laid to the variable that divides, not to the one that was asked for. -/
theorem divided_explained : (namesOf divided).Nodup ∧ ∃ r, start divided = .ok r ∧
    ((r.after ["ZERO", "SHARE"]).valueOf "TOTAL").2 = .error (.within "SHARE" .divisionByZero) ∧
    Explained divided (fun other => ((r.after ["ZERO", "SHARE"]).valueOf other).2) "TOTAL"
      (.within "SHARE" .divisionByZero) := by
  have distinct : (namesOf divided).Nodup := by decide
  obtain ⟨r, hs, h⟩ := failure_explained divided distinct
  have fails : ((r.after ["ZERO", "SHARE"]).valueOf "TOTAL").2 =
      .error (.within "SHARE" .divisionByZero) := by
    rw [(valueOf_spec (after_consistent (consistent_of_start hs) ["ZERO", "SHARE"]) "TOTAL").1]
    cbv
  exact ⟨distinct, r, hs, fails, h ["ZERO", "SHARE"] "TOTAL" _ fails⟩

end Resolution

end Reckoner
