import Reckoner.Formula
import Reckoner.Proofs.Resolution.Course

/-!
# What resolving variables finds

The variables are equations: a constant names its number, and a dynamic variable the value of its
expression. `Solution` says of an assignment of numbers to names that it solves them, without an order
of evaluation: names are distinct, expressions can be read and refer to variables that are there,
nothing depends on itself, and every equation holds.

**`resolve` succeeds exactly where there is a solution, and finds it** (`resolve_iff_solution`). From
left to right every value found has a derivation. From right to left a solution is derived name by
name, along the relation "refers to", which is well-founded because it has no cycle and the names are
finite in number. So there is one solution at most, and the order of the variables does not matter.
What is listed is the map that the walks for the variables leave behind (`recorded_of_resolve`): they
record no other name, since what is recorded has a derivation, and miss none, since each was asked for.
-/

namespace Reckoner

open Relation (TransGen ReflTransGen)

/-- **An assignment of numbers to names solves the variables.** -/
structure Solution (vars : List Variable) (m : String → Option Binary64) : Prop where
  distinct : (namesOf vars).Nodup
  readable : ∀ v ∈ vars, v.kind = .dynamic → ∃ lexemes,
    Lexeme.ofText .dynamic v.text = .ok lexemes ∧
      ∀ other ∈ Lexeme.references lexemes, other ∈ namesOf vars
  acyclic : ∀ name, ¬ TransGen (RefersTo vars) name name
  domain : ∀ name, (m name).isSome = true ↔ name ∈ namesOf vars
  constants : ∀ v ∈ vars, v.kind = .constant → ∃ x, Number.ofConstant? v.text = some x ∧
    x.isFinite = true ∧ m v.name.text = some x
  dynamics : ∀ v ∈ vars, v.kind = .dynamic → ∀ lexemes, Lexeme.ofText .dynamic v.text = .ok lexemes →
    ∃ x, m v.name.text = some x ∧
      (Lexeme.bind (Formula.symbolValue m fun _ => none) lexemes >>= Token.evaluate) = .ok x

/-- Resolving finds an assignment. -/
def Resolves (vars : List Variable) (m : String → Option Binary64) : Prop :=
  ∃ values, resolve vars = .ok values ∧ ∀ name, values.lookup name = m name

/-! ## 1. The values of all variables -/

section

variable {vars : List Variable} {name : String} {x : Binary64}

/-- Resolving works all variables out, or is refused for a repeated name. -/
theorem resolve_eq_naiveAll (distinct : (namesOf vars).Nodup) :
    resolve vars = naiveAll vars vars := by
  obtain ⟨r, hs, h⟩ := Resolution.start_spec distinct
  unfold resolve
  rw [hs]
  exact Resolution.all_spec h

theorem distinct_of_resolve {values : List (String × Binary64)} (h : resolve vars = .ok values) :
    (namesOf vars).Nodup := by
  unfold resolve at h
  cases hs : Resolution.start vars with
  | error fault => rw [hs] at h; cases h
  | ok r => exact Resolution.distinct_of_start hs

/-- Where every variable has a value, there is a list of them. -/
theorem naiveAll_ok : ∀ {vs : List Variable}, (∀ v ∈ vs, ∃ x, Means vars v.name.text x) →
    ∃ values, naiveAll vars vs = .ok values
  | [], _ => ⟨[], rfl⟩
  | v :: vs, h => by
      obtain ⟨x, hx⟩ := h v List.mem_cons_self
      obtain ⟨values, hv⟩ := naiveAll_ok fun w hw => h w (List.mem_cons_of_mem _ hw)
      refine ⟨(v.name.text, x) :: values, ?_⟩
      unfold naiveAll at hv ⊢
      rw [List.mapM_cons, means_iff_naive.mp hx, hv]
      rfl

/-- A list of the values of variables gives each name its value, and has one for each variable. -/
theorem lookup_naiveAll : ∀ {vs : List Variable} {values : List (String × Binary64)},
    naiveAll vars vs = .ok values →
      values.map Prod.fst = namesOf vs ∧ (∀ v ∈ vs, ∃ x, Means vars v.name.text x) ∧
      ∀ name x, values.lookup name = some x ↔ name ∈ namesOf vs ∧ Means vars name x
  | [], values, h => by
      cases h
      simp [namesOf]
  | v :: vs, values, h => by
      unfold naiveAll at h
      rw [List.mapM_cons] at h
      obtain ⟨entry, hn, h⟩ := bind_eq_ok h
      obtain ⟨values', hv, h⟩ := bind_eq_ok h
      cases h
      obtain ⟨y, value, rfl⟩ := map_eq_ok hn
      obtain ⟨hk, hm, hl⟩ := lookup_naiveAll hv
      have hy := means_iff_naive.mpr value
      refine ⟨congrArg (v.name.text :: ·) hk, List.forall_mem_cons.mpr ⟨⟨y, hy⟩, hm⟩,
        fun name x => ?_⟩
      simp only [List.lookup_cons, namesOf, List.map_cons, List.mem_cons]
      by_cases e : name = v.name.text
      · subst e
        simp only [beq_self_eq_true, true_or, true_and, Option.some.injEq]
        exact ⟨fun e => e ▸ hy, fun hx => hy.unique hx⟩
      · have e' : (name == v.name.text) = false := by simpa using e
        simp only [e', e, false_or]
        exact hl name x

/-- **What is listed is what is recorded**: behind the requests for all variables there is a value for
each name listed, the one that is listed with it, and for no other. -/
theorem recorded_of_resolve {values : List (String × Binary64)} (h : resolve vars = .ok values) :
    ∃ r, Resolution.start vars = .ok r ∧
      ∀ name, (r.after (namesOf vars)).values[name]? = values.lookup name := by
  obtain ⟨r, hs, consistent⟩ := Resolution.start_spec (distinct_of_resolve h)
  have listed : r.all = .ok values := by
    unfold resolve at h
    rwa [hs] at h
  obtain ⟨-, -, hl⟩ := lookup_naiveAll (Resolution.all_spec consistent ▸ listed)
  have sound := (Resolution.after_consistent consistent (namesOf vars)).sound
  rw [Resolution.all, consistent.vars_eq] at listed
  refine ⟨r, hs, fun name => Option.ext fun x => ?_⟩
  rw [hl]
  constructor
  · intro hx
    have means := sound name x hx
    exact ⟨means.mem_namesOf, means⟩
  · rintro ⟨asked, means⟩
    have known := Resolution.known_of_valuesOf consistent listed (.inr asked)
    obtain ⟨y, hy⟩ := Option.isSome_iff_exists.mp (Std.HashMap.isSome_getElem?_iff_mem.mpr known)
    rw [hy, means.unique (sound name y hy)]

end

/-! ## 2. Solutions are the values -/

section

variable {vars : List Variable} {m : String → Option Binary64}

/-- Where the references of an expression have values, binding by an assignment fills them in. -/
theorem bind_symbolValue {context : Context} {lexemes : List Lexeme} {value : String → Binary64}
    (hp : ∀ name, Lexeme.symbol (.placeholder name) ∉ lexemes)
    (h : ∀ other ∈ Lexeme.references lexemes, m other = some (value other)) :
    Lexeme.bind (Formula.symbolValue m context) lexemes =
      .ok (lexemes.map (Lexeme.fill value)) := by
  refine Lexeme.bind_fill fun s hs => ?_
  obtain ⟨other, hm, rfl⟩ := reference_eq hp hs
  simp only [Formula.symbolValue, h other hm]
  rfl

/-- "Refers to", among the names there are, is well-founded where it has no cycle. -/
theorem wellFounded_of_acyclic (acyclic : ∀ name, ¬ TransGen (RefersTo vars) name name) :
    WellFounded fun a b : { name // name ∈ namesOf vars } => TransGen (RefersTo vars) b.1 a.1 := by
  have : IsTrans { name // name ∈ namesOf vars } fun a b => TransGen (RefersTo vars) b.1 a.1 :=
    ⟨fun _ _ _ hab hbc => hbc.trans hab⟩
  have : Std.Irrefl fun a b : { name // name ∈ namesOf vars } =>
      TransGen (RefersTo vars) b.1 a.1 := ⟨fun a h => acyclic a.1 h⟩
  exact Finite.wellFounded_of_trans_of_irrefl _

/-- **A solution can be derived**, name by name along the references. -/
theorem Solution.means (h : Solution vars m) :
    ∀ name ∈ namesOf vars, ∃ x, m name = some x ∧ Means vars name x := by
  intro name hname
  induction hn : (⟨name, hname⟩ : { name // name ∈ namesOf vars }) using
    (wellFounded_of_acyclic h.acyclic).induction generalizing name with
  | _ a ih =>
    subst hn
    obtain ⟨v, hv, rfl⟩ := mem_namesOf.mp hname
    have found := definition?_of_mem h.distinct hv
    cases kind : v.kind with
    | constant =>
      obtain ⟨x, read, -, hx⟩ := h.constants v hv kind
      exact ⟨x, hx, .constant found kind read⟩
    | dynamic =>
      obtain ⟨lexemes, read, known⟩ := h.readable v hv kind
      obtain ⟨x, hx, evaluated⟩ := h.dynamics v hv kind lexemes read
      -- what the expression refers to comes before it
      have hrefs : ∀ other ∈ Lexeme.references lexemes,
          m other = some ((m other).getD ⟨0⟩) ∧ Means vars other ((m other).getD ⟨0⟩) := by
        intro other hm
        obtain ⟨y, hy, hmeans⟩ := ih ⟨other, known other hm⟩
          (.single ⟨v, lexemes, found, kind, read, hm⟩) other (known other hm) rfl
        rw [hy]
        exact ⟨rfl, hmeans⟩
      rw [bind_symbolValue (Lexeme.no_placeholder read) fun other hm => (hrefs other hm).1]
        at evaluated
      exact ⟨x, hx, .dynamic found kind read (fun other hm => (hrefs other hm).2) evaluated⟩

/-- A solution gives exactly the values that have a derivation. -/
theorem Solution.eq_some_iff (h : Solution vars m) {name : String} {x : Binary64} :
    m name = some x ↔ Means vars name x := by
  constructor
  · intro hx
    obtain ⟨y, hy, hmeans⟩ := h.means name ((h.domain name).mp (by simp [hx]))
    cases hx.symm.trans hy
    exact hmeans
  · intro hmeans
    obtain ⟨y, hy, hmeans'⟩ := h.means name hmeans.mem_namesOf
    rw [hmeans.unique hmeans']
    exact hy

/-- **Where every variable has a value, the values solve the variables.** -/
theorem solution_of_means (distinct : (namesOf vars).Nodup)
    (values : ∀ v ∈ vars, ∃ x, Means vars v.name.text x)
    (hm : ∀ name x, m name = some x ↔ Means vars name x) : Solution vars m where
  distinct := distinct
  readable v hv kind := by
    obtain ⟨x, hx⟩ := values v hv
    obtain ⟨lexemes, value, read, known, -⟩ := hx.of_dynamic (definition?_of_mem distinct hv) kind
    exact ⟨lexemes, read, fun other ho => (known other ho).mem_namesOf⟩
  acyclic name hc := by
    obtain ⟨other, ⟨v, lexemes, found, kind, read, ho⟩, -⟩ := TransGen.head'_iff.mp hc
    obtain ⟨x, hx⟩ := values v (definition?_mem found)
    rw [definition?_name found] at hx
    exact hx.acyclic hc
  domain name := by
    rw [Option.isSome_iff_exists]
    constructor
    · rintro ⟨x, hx⟩
      exact ((hm name x).mp hx).mem_namesOf
    · intro hname
      obtain ⟨v, hv, rfl⟩ := mem_namesOf.mp hname
      obtain ⟨x, hx⟩ := values v hv
      exact ⟨x, (hm _ x).mpr hx⟩
  constants v hv kind := by
    obtain ⟨x, hx⟩ := values v hv
    have read := hx.of_constant (definition?_of_mem distinct hv) kind
    exact ⟨x, read, Number.isFinite_of_ofConstant? read, (hm _ x).mpr hx⟩
  dynamics v hv kind lexemes read := by
    obtain ⟨x, hx⟩ := values v hv
    obtain ⟨lexemes', value, read', known, evaluated⟩ :=
      hx.of_dynamic (definition?_of_mem distinct hv) kind
    cases read.symm.trans read'
    refine ⟨x, (hm _ x).mpr hx, ?_⟩
    rw [bind_symbolValue (Lexeme.no_placeholder read) fun other ho => (hm _ _).mpr (known other ho)]
    exact evaluated

/-- **Resolving finds an assignment exactly if it solves the variables.** -/
theorem resolves_iff : Resolves vars m ↔ Solution vars m := by
  constructor
  · rintro ⟨values, h, hm⟩
    have distinct := distinct_of_resolve h
    rw [resolve_eq_naiveAll distinct] at h
    obtain ⟨-, hv, hl⟩ := lookup_naiveAll h
    refine solution_of_means distinct hv fun name x => ?_
    rw [← hm, hl]
    exact ⟨fun hx => hx.2, fun hx => ⟨hx.mem_namesOf, hx⟩⟩
  · intro h
    have hv : ∀ v ∈ vars, ∃ x, Means vars v.name.text x := by
      intro v hv
      obtain ⟨x, -, hx⟩ := h.means _ (mem_namesOf.mpr ⟨v, hv, rfl⟩)
      exact ⟨x, hx⟩
    obtain ⟨values, hok⟩ := naiveAll_ok hv
    obtain ⟨-, -, hl⟩ := lookup_naiveAll hok
    refine ⟨values, (resolve_eq_naiveAll h.distinct).trans hok, fun name => ?_⟩
    refine Option.ext fun x => ?_
    rw [hl, h.eq_some_iff]
    exact ⟨fun hx => hx.2, fun hx => ⟨hx.mem_namesOf, hx⟩⟩

end

/-! ## 3. The order of the variables -/

section

variable {vars vars' : List Variable} {m : String → Option Binary64}

theorem definition?_perm (hp : vars.Perm vars') (distinct : (namesOf vars).Nodup) {name : String}
    {v : Variable} (found : definition? vars name = some v) : definition? vars' name = some v := by
  have distinct' : (namesOf vars').Nodup := (hp.map _).nodup_iff.mp distinct
  rw [← definition?_name found]
  exact definition?_of_mem distinct' (hp.mem_iff.mp (definition?_mem found))

theorem RefersTo.perm (hp : vars.Perm vars') (distinct : (namesOf vars).Nodup) {name other : String}
    (h : RefersTo vars name other) : RefersTo vars' name other := by
  obtain ⟨v, lexemes, found, rest⟩ := h
  exact ⟨v, lexemes, definition?_perm hp distinct found, rest⟩

/-- A solution solves the variables in every order. -/
theorem Solution.perm (hp : vars.Perm vars') (h : Solution vars m) : Solution vars' m := by
  have distinct' : (namesOf vars').Nodup := (hp.map _).nodup_iff.mp h.distinct
  have hn : ∀ name, name ∈ namesOf vars' ↔ name ∈ namesOf vars := fun _ => (hp.map _).symm.mem_iff
  refine ⟨distinct', fun v hv kind => ?_, fun name hc => ?_, fun name => ?_, fun v hv => ?_,
    fun v hv => ?_⟩
  · obtain ⟨lexemes, read, known⟩ := h.readable v (hp.mem_iff.mpr hv) kind
    exact ⟨lexemes, read, fun other ho => (hn other).mpr (known other ho)⟩
  · exact h.acyclic name (hc.lift id fun _ _ => RefersTo.perm hp.symm distinct')
  · rw [h.domain, hn]
  · exact h.constants v (hp.mem_iff.mpr hv)
  · exact h.dynamics v (hp.mem_iff.mpr hv)

theorem Resolves.unique {m' : String → Option Binary64} (h : Resolves vars m)
    (h' : Resolves vars m') : m = m' := by
  obtain ⟨values, hv, hm⟩ := h
  obtain ⟨values', hv', hm'⟩ := h'
  cases hv.symm.trans hv'
  exact funext fun name => (hm name).symm.trans (hm' name)

end

/-- **Resolving is solving**: an assignment is found exactly if it solves the variables; there is one
at most, and the order in which the variables are given decides neither whether there is one nor which
it is. What is found is listed in that order, one number for each variable, and it is what the walks for
them have recorded. -/
theorem resolve_iff_solution (vars : List Variable) :
    (∀ m, Resolves vars m ↔ Solution vars m) ∧
      (∀ m m', Resolves vars m → Resolves vars m' → m = m') ∧
      (∀ vars', vars.Perm vars' → ∀ m, Resolves vars m ↔ Resolves vars' m) ∧
      ∀ values, resolve vars = .ok values → values.map Prod.fst = namesOf vars ∧
        ∃ r, Resolution.start vars = .ok r ∧
          ∀ name, (r.after (namesOf vars)).values[name]? = values.lookup name := by
  refine ⟨fun m => resolves_iff, fun m m' => Resolves.unique, fun vars' hp m => ?_, fun values h => ?_⟩
  · rw [resolves_iff, resolves_iff]
    exact ⟨Solution.perm hp, Solution.perm hp.symm⟩
  · refine ⟨?_, recorded_of_resolve h⟩
    rw [resolve_eq_naiveAll (distinct_of_resolve h)] at h
    exact (lookup_naiveAll h).1

end Reckoner
