import Reckoner.Proofs.Binding
import Mathlib.Logic.Relation

/-!
# The meaning of a name

What the value of a name is, said without a stack and without values kept from before, in two ways:

* `naive` works a name out by plain recursion along the path of names that led to it, and says for
  each fault where it lies;
* `Means` derives the value of a name from the values of the names it refers to, and has no faults.

The two agree. A value found along a path has a derivation (`means_of_naive`). A name with a derivation
depends on itself nowhere (`Means.acyclic`), so it is found along every path that does not meet what
it depends on (`Means.naive`), and along no path at all in particular.
-/

namespace Reckoner

open Std (HashMap)
open Relation (TransGen ReflTransGen)

/-! ## 1. Definitions by name -/

/-- The names of variables. -/
def namesOf (vars : List Variable) : List String :=
  vars.map fun v => v.name.text

theorem mem_namesOf {vars : List Variable} {name : String} :
    name ∈ namesOf vars ↔ ∃ v ∈ vars, v.name.text = name :=
  List.mem_map

/-- The definition of a name. -/
def definition? (vars : List Variable) (name : String) : Option Variable :=
  vars.find? fun v => v.name.text == name

theorem definition?_mem {vars : List Variable} {name : String} {v : Variable}
    (h : definition? vars name = some v) : v ∈ vars :=
  List.mem_of_find?_eq_some h

theorem definition?_name {vars : List Variable} {name : String} {v : Variable}
    (h : definition? vars name = some v) : v.name.text = name := by
  have := List.find?_some h
  simpa using this

theorem definition?_eq_none {vars : List Variable} {name : String} :
    definition? vars name = none ↔ name ∉ namesOf vars := by
  simp [definition?, namesOf]

/-- Where names are distinct, each variable is the definition of its name. -/
theorem definition?_of_mem : ∀ {vars : List Variable} {v : Variable},
    (namesOf vars).Nodup → v ∈ vars → definition? vars v.name.text = some v
  | [], _, _, h => absurd h List.not_mem_nil
  | w :: vars, v, hn, h => by
      simp only [namesOf, List.map_cons, List.nodup_cons] at hn
      unfold definition?
      rcases List.mem_cons.mp h with rfl | h
      · simp
      · have hw : (w.name.text == v.name.text) = false := by
          have : w.name.text ≠ v.name.text := fun e => hn.1 (e ▸ List.mem_map_of_mem h)
          simpa using this
        simp only [List.find?, hw]
        exact definition?_of_mem hn.2 h

/-- `index` accepts exactly the lists without a repeated name. -/
theorem index_ok_iff : ∀ {vars : List Variable} {definitions : HashMap String Variable},
    (∃ d, Resolution.index definitions vars = .ok d) ↔
      (namesOf vars).Nodup ∧ ∀ v ∈ vars, v.name.text ∉ definitions
  | [], _ => by simp [Resolution.index, namesOf]
  | v :: vars, definitions => by
      unfold Resolution.index
      by_cases hv : v.name.text ∈ definitions
      · have hc : definitions.contains v.name.text = true := HashMap.contains_iff_mem.mpr hv
        rw [hc, if_pos rfl]
        constructor
        · rintro ⟨d, h⟩
          cases h
        · rintro ⟨-, hd⟩
          exact absurd hv (hd v List.mem_cons_self)
      · have hc : ¬ definitions.contains v.name.text = true :=
          fun h => hv (HashMap.contains_iff_mem.mp h)
        rw [if_neg hc, index_ok_iff]
        simp only [namesOf, List.map_cons, List.nodup_cons, List.mem_cons, forall_eq_or_imp,
          HashMap.mem_insert, beq_iff_eq, not_or, List.mem_map]
        constructor
        · rintro ⟨hn, hd⟩
          exact ⟨⟨fun ⟨w, hw, e⟩ => (hd w hw).1 e.symm, hn⟩, hv, fun w hw => (hd w hw).2⟩
        · rintro ⟨⟨hv', hn⟩, -, hd⟩
          exact ⟨hn, fun w hw => ⟨fun e => hv' ⟨w, hw, e.symm⟩, hd w hw⟩⟩

/-- What `index` makes looks a name up as the list does. -/
theorem index_lookup : ∀ {vars : List Variable} {definitions d : HashMap String Variable},
    Resolution.index definitions vars = .ok d → ∀ name,
      d[name]? = (definitions[name]?).or (definition? vars name)
  | [], _, _, h, name => by
      cases h
      simp [definition?]
  | v :: vars, definitions, d, h, name => by
      unfold Resolution.index at h
      split at h
      · cases h
      · rename_i hv
        rw [index_lookup h name, HashMap.getElem?_insert]
        unfold definition?
        by_cases e : (v.name.text == name) = true
        · have hn : definitions[name]? = none := by
            have e' : v.name.text = name := by simpa using e
            rw [← e']
            exact HashMap.getElem?_eq_none (by simpa using hv)
          simp [e, hn]
        · have e' : (v.name.text == name) = false := by simpa using e
          simp [e']

/-! ## 2. The recursive reading -/

/-- The value of the expression of `owner`, when `value` gives the values of names. -/
def expressionValue (owner : String) (value : String → Except Failure Binary64)
    (lexemes : List Lexeme) : Except Failure Binary64 := do
  let tokens ← Lexeme.bind (Lexeme.referenceValue
    (fun name => Failure.within owner (.missingContextualValue name))
    fun name => (value name).mapError (Failure.blame owner)) lexemes
  (Token.evaluate tokens).mapError (Failure.within owner)

/-- **The value of a name, by plain recursion along a path**: nothing is kept, and a name that is on
the path already depends on itself. -/
def naive (vars : List Variable) (path : List String) (name : String) : Except Failure Binary64 :=
  match _found : definition? vars name with
  | none => .error (.plain (.undefinedVariable name))
  | some v =>
    if _fresh : name ∈ path then
      .error (.plain (.circularDependency name))
    else
      match v.kind with
      | .constant =>
        match Number.ofConstant? v.text with
        | some x => .ok x
        | none => .error (.plain (.nonNumericConstant name))
      | .dynamic =>
        match Lexeme.ofText .dynamic v.text with
        | .ok lexemes => expressionValue name (fun other => naive vars (name :: path) other) lexemes
        | .error fault => .error (.within name fault)
termination_by (vars.filter fun v => v.name.text ∉ path).length
decreasing_by
  refine Walk.filter_length_lt (fun w hw => ?_) (definition?_mem _found) ?_ ?_
  · simp only [List.mem_cons, not_or, decide_eq_true_eq] at hw ⊢
    exact hw.2
  · simpa [definition?_name _found] using _fresh
  · simp [definition?_name _found]

/-- The names of a list of variables with what they are worked out to, up to the first failure. -/
def naiveAll (vars vs : List Variable) : Except Failure (List (String × Binary64)) :=
  vs.mapM fun v => (naive vars [] v.name.text).map fun x => (v.name.text, x)

section Naive

variable {vars : List Variable} {path : List String} {name : String}

theorem naive_undefined (h : definition? vars name = none) :
    naive vars path name = .error (.plain (.undefinedVariable name)) := by
  rw [naive]
  split
  · rfl
  · rename_i v found
    cases h.symm.trans found

variable {v : Variable}

theorem naive_circular (found : definition? vars name = some v) (h : name ∈ path) :
    naive vars path name = .error (.plain (.circularDependency name)) := by
  rw [naive]
  split
  · rename_i missing
    cases found.symm.trans missing
  · rw [dif_pos h]

/-- A name that is defined and not on the path is worked out by its kind. -/
theorem naive_defined (found : definition? vars name = some v) (fresh : name ∉ path) :
    naive vars path name =
      match v.kind with
      | .constant =>
        match Number.ofConstant? v.text with
        | some x => .ok x
        | none => .error (.plain (.nonNumericConstant name))
      | .dynamic =>
        match Lexeme.ofText .dynamic v.text with
        | .ok lexemes => expressionValue name (naive vars (name :: path)) lexemes
        | .error fault => .error (.within name fault) := by
  rw [naive]
  split
  · rename_i missing
    cases found.symm.trans missing
  · rename_i w found'
    cases found.symm.trans found'
    rw [dif_neg fresh]

theorem naive_dynamic {lexemes : List Lexeme} (found : definition? vars name = some v)
    (fresh : name ∉ path) (kind : v.kind = .dynamic)
    (read : Lexeme.ofText .dynamic v.text = .ok lexemes) :
    naive vars path name = expressionValue name (naive vars (name :: path)) lexemes := by
  rw [naive_defined found fresh, kind]
  simp only [read]

end Naive

/-! ## 3. References and derivations -/

/-- The expression of one name refers to another. -/
def RefersTo (vars : List Variable) (name other : String) : Prop :=
  ∃ v lexemes, definition? vars name = some v ∧ v.kind = .dynamic ∧
    Lexeme.ofText .dynamic v.text = .ok lexemes ∧ other ∈ Lexeme.references lexemes

/-- **The value of a name derived from the values of what it refers to.** -/
inductive Means (vars : List Variable) : String → Binary64 → Prop
  | constant {name : String} {v : Variable} {x : Binary64} (found : definition? vars name = some v)
      (kind : v.kind = .constant) (read : Number.ofConstant? v.text = some x) : Means vars name x
  | dynamic {name : String} {v : Variable} {lexemes : List Lexeme} {value : String → Binary64}
      {x : Binary64} (found : definition? vars name = some v) (kind : v.kind = .dynamic)
      (read : Lexeme.ofText .dynamic v.text = .ok lexemes)
      (known : ∀ other ∈ Lexeme.references lexemes, Means vars other (value other))
      (evaluated : Token.evaluate (lexemes.map (Lexeme.fill value)) = .ok x) : Means vars name x

section Means

variable {vars : List Variable} {name : String} {x : Binary64}

/-- The value of a constant is the number its text says. -/
theorem Means.of_constant (h : Means vars name x) {v : Variable}
    (found : definition? vars name = some v) (kind : v.kind = .constant) :
    Number.ofConstant? v.text = some x := by
  cases h with
  | constant found' _ read =>
    cases found.symm.trans found'
    exact read
  | dynamic found' kind' =>
    cases found.symm.trans found'
    cases kind.symm.trans kind'

/-- The value of a dynamic variable is that of its expression, with the values of what it refers to in
their places. -/
theorem Means.of_dynamic (h : Means vars name x) {v : Variable}
    (found : definition? vars name = some v) (kind : v.kind = .dynamic) :
    ∃ lexemes value, Lexeme.ofText .dynamic v.text = .ok lexemes ∧
      (∀ other ∈ Lexeme.references lexemes, Means vars other (value other)) ∧
      Token.evaluate (lexemes.map (Lexeme.fill value)) = .ok x := by
  cases h with
  | constant found' kind' =>
    cases found.symm.trans found'
    cases kind.symm.trans kind'
  | dynamic found' _ read known evaluated =>
    cases found.symm.trans found'
    exact ⟨_, _, read, known, evaluated⟩

/-- **A name with a value does not depend on itself.** -/
theorem Means.acyclic (h : Means vars name x) : ¬ TransGen (RefersTo vars) name name := by
  induction h with
  | constant found kind read =>
    intro hc
    obtain ⟨other, ⟨v, _, found', kind', _⟩, -⟩ := TransGen.head'_iff.mp hc
    cases found.symm.trans found'
    cases kind.symm.trans kind'
  | @dynamic name v lexemes _ _ found kind read known _ ih =>
    intro hc
    obtain ⟨other, step, back⟩ := TransGen.head'_iff.mp hc
    have hm : other ∈ Lexeme.references lexemes := by
      obtain ⟨w, ls, found', -, read', hm⟩ := step
      cases found.symm.trans found'
      cases read.symm.trans read'
      exact hm
    -- the first name on the cycle lies on it too
    exact ih other hm (TransGen.tail' back step)

end Means

/-! ## 4. The two readings agree -/

/-- The value of a successful lookup. -/
def valueD (value : String → Except Failure Binary64) (name : String) : Binary64 :=
  match value name with
  | .ok x => x
  | .error _ => ⟨0⟩

section Agree

variable {vars : List Variable} {owner : String} {value : String → Except Failure Binary64}
  {lexemes : List Lexeme} {x : Binary64}

theorem reference_eq {ls : List Lexeme} (hp : ∀ name, Lexeme.symbol (.placeholder name) ∉ ls)
    {s : Symbol} (hs : Lexeme.symbol s ∈ ls) : ∃ name ∈ Lexeme.references ls, s = .reference name := by
  cases s with
  | reference name => exact ⟨name, Lexeme.mem_references.mpr hs, rfl⟩
  | placeholder name => exact absurd hs (hp name)

/-- An expression whose references all have values is filled in and evaluated. -/
theorem expressionValue_fill {known : String → Binary64}
    (hp : ∀ name, Lexeme.symbol (.placeholder name) ∉ lexemes)
    (h : ∀ other ∈ Lexeme.references lexemes, value other = .ok (known other)) :
    expressionValue owner value lexemes =
      (Token.evaluate (lexemes.map (Lexeme.fill known))).mapError (Failure.within owner) := by
  unfold expressionValue
  rw [Lexeme.bind_fill (x := known)]
  · rfl
  · intro s hs
    obtain ⟨other, hm, rfl⟩ := reference_eq hp hs
    simp only [Lexeme.referenceValue, h other hm]
    rfl

/-- Where the references of an expression can be bound, all have values. -/
theorem known_of_bind {missing : String → Failure} {rename : Failure → Failure} {ts : List Token}
    (h : Lexeme.bind (Lexeme.referenceValue missing fun name => (value name).mapError rename)
      lexemes = .ok ts) :
    ∀ other ∈ Lexeme.references lexemes, value other = .ok (valueD value other) := by
  intro other hm
  obtain ⟨y, hy⟩ := Lexeme.value_of_bind h _ (Lexeme.mem_references.mp hm)
  unfold valueD
  rw [mapError_eq_ok hy]

/-- Where an expression has a value, all its references have. -/
theorem value_of_expressionValue (hp : ∀ name, Lexeme.symbol (.placeholder name) ∉ lexemes)
    (h : expressionValue owner value lexemes = .ok x) :
    (∀ other ∈ Lexeme.references lexemes, value other = .ok (valueD value other)) ∧
      Token.evaluate (lexemes.map (Lexeme.fill (valueD value))) = .ok x := by
  have hv : ∀ other ∈ Lexeme.references lexemes, value other = .ok (valueD value other) := by
    unfold expressionValue at h
    obtain ⟨ts, hb, -⟩ := bind_eq_ok h
    exact known_of_bind hb
  refine ⟨hv, ?_⟩
  rw [expressionValue_fill hp hv] at h
  exact mapError_eq_ok h

/-- **A value found along a path has a derivation.** -/
theorem means_of_naive : ∀ (path : List String) (name : String) {x : Binary64},
    naive vars path name = .ok x → Means vars name x := by
  intro path name
  fun_induction naive vars path name with
  | case1 => intro x h; cases h
  | case2 => intro x h; cases h
  | case3 path name v found _ kind y read =>
    intro x h
    cases h
    exact .constant found kind read
  | case4 => intro x h; cases h
  | case5 path name v found _ kind lexemes read ih =>
    intro x h
    obtain ⟨known, evaluated⟩ := value_of_expressionValue (Lexeme.no_placeholder read) h
    exact .dynamic found kind read (fun other hm => ih other (known other hm)) evaluated
  | case6 => intro x h; cases h

/-- **A derived value is found along every path that misses what the name depends on.** -/
theorem Means.naive {name : String} {x : Binary64} (h : Means vars name x) :
    ∀ {path : List String}, (∀ p ∈ path, ¬ ReflTransGen (RefersTo vars) name p) →
      naive vars path name = .ok x := by
  induction h with
  | @constant name v x found kind read =>
    intro path hp
    have fresh : name ∉ path := fun hm => hp name hm .refl
    rw [naive_defined found fresh, kind]
    simp only [read]
  | @dynamic name v lexemes known x found kind read derived evaluated ih =>
    intro path hp
    have fresh : name ∉ path := fun hm => hp name hm .refl
    have hv : ∀ other ∈ Lexeme.references lexemes,
        Reckoner.naive vars (name :: path) other = .ok (known other) := by
      intro other hm
      have step : RefersTo vars name other := ⟨v, lexemes, found, kind, read, hm⟩
      refine ih other hm fun p hpath back => ?_
      rcases List.mem_cons.mp hpath with rfl | hpath
      · exact (derived other hm).acyclic (TransGen.tail' back step)
      · exact hp p hpath (.head step back)
    rw [naive_dynamic found fresh kind read, expressionValue_fill (Lexeme.no_placeholder read) hv,
      evaluated]
    rfl

/-- The two readings agree where nothing is under way. -/
theorem means_iff_naive {name : String} {x : Binary64} :
    Means vars name x ↔ naive vars [] name = .ok x :=
  ⟨fun h => h.naive fun _ hp => absurd hp List.not_mem_nil, means_of_naive [] name⟩

/-- A name has one value at most. -/
theorem Means.unique {name : String} {x y : Binary64} (hx : Means vars name x)
    (hy : Means vars name y) : x = y :=
  Except.ok.inj ((means_iff_naive.mp hx).symm.trans (means_iff_naive.mp hy))

/-- Only a name that is defined has a value. -/
theorem Means.mem_namesOf {name : String} {x : Binary64} (h : Means vars name x) :
    name ∈ namesOf vars := by
  obtain ⟨v, found⟩ : ∃ v, definition? vars name = some v := by
    cases h with
    | constant found => exact ⟨_, found⟩
    | dynamic found => exact ⟨_, found⟩
  exact Reckoner.mem_namesOf.mpr ⟨v, definition?_mem found, definition?_name found⟩

end Agree

end Reckoner
