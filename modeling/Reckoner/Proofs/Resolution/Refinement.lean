import Reckoner.Proofs.Resolution.Walk
import Mathlib

/-!
# A resolution answers as plain recursion does

Between two requests a resolution keeps values and nothing else (`Resolution.Consistent`): each value
has a derivation, and no name is under way. So every request, after any requests that came before and
whether those succeeded or not, has the answer of the recursive reading
(`Resolution.valueOf_spec`), and so has the request for all variables
(`Resolution.answers_eq_naive`).
-/

namespace Reckoner.Resolution

open Std (HashMap HashSet)

/-- **What holds of a resolution between two requests.** -/
structure Consistent (vars : List Variable) (r : Resolution) : Prop where
  vars_eq : r.vars = vars
  definitions : ∀ name, r.definitions[name]? = definition? vars name
  sound : Sound vars r.values
  idle : ∀ name, name ∉ r.active

/-- The resolution that a list of requests leaves behind. -/
def after (r : Resolution) (names : List String) : Resolution :=
  names.foldl (fun r name => (r.valueOf name).1) r

section

variable {vars : List Variable} {r : Resolution}

theorem distinct_of_start (h : start vars = .ok r) : (namesOf vars).Nodup := by
  unfold start at h
  cases hd : index ∅ vars with
  | error fault => rw [hd] at h; cases h
  | ok d => exact (index_ok_iff.mp ⟨d, hd⟩).1

/-- A resolution starts with no value found yet. -/
theorem consistent_of_start (h : start vars = .ok r) : Consistent vars r := by
  unfold start at h
  cases hd : index ∅ vars with
  | error fault => rw [hd] at h; cases h
  | ok d =>
    rw [hd] at h
    cases h
    refine ⟨rfl, fun name => ?_, fun name x hx => ?_, fun name hm => HashSet.not_mem_empty hm⟩
    · rw [index_lookup hd name, HashMap.getElem?_empty, Option.none_or]
    · rw [HashMap.getElem?_empty] at hx
      cases hx

/-- A resolution over distinct names starts. -/
theorem start_spec (distinct : (namesOf vars).Nodup) :
    ∃ r, start vars = .ok r ∧ Consistent vars r := by
  obtain ⟨d, hd⟩ := index_ok_iff.mpr
    ⟨distinct, fun v _ => (HashMap.not_mem_empty : v.name.text ∉ (∅ : HashMap String Variable))⟩
  have hs : start vars = .ok ⟨vars, d, ∅, ∅⟩ := by simp only [start, hd]
  exact ⟨_, hs, consistent_of_start hs⟩

/-- **One request**: the answer is that of the recursive reading, and the resolution is as before. -/
theorem valueOf_spec (h : Consistent vars r) (name : String) :
    (r.valueOf name).2 = naive vars [] name ∧ Consistent vars (r.valueOf name).1 := by
  obtain ⟨vars, definitions, values, active⟩ := r
  obtain ⟨rfl, hd, sound, idle⟩ := h
  simp only at hd sound idle
  have hentry := entry_spec [] name hd sound
    (fun other => ⟨fun hm => absurd hm (idle other), fun hm => absurd hm List.not_mem_nil⟩)
    (fun p hp => absurd hp List.not_mem_nil)
  cases hf : Entry.of definitions values active name with
  | error failure =>
    rw [hf] at hentry
    simp only [valueOf, hf]
    exact ⟨hentry.symm, rfl, hd, sound, idle⟩
  | ok entry =>
    rw [hf] at hentry
    cases entry with
    | known x =>
      simp only [valueOf, hf]
      exact ⟨hentry.symm, rfl, hd, sound, idle⟩
    | constant x =>
      simp only [valueOf, hf]
      exact ⟨hentry.symm, rfl, hd, sound.insert (means_of_naive _ _ hentry), idle⟩
    | descend root =>
      obtain ⟨rfl, -, reads, resumes⟩ := hentry
      have inv : Walk.Inv vars root.owner ⟨values, active.insert root.owner, [root]⟩ root [] := by
        refine ⟨rfl, ⟨sound, fun other => ?_⟩, reads, List.not_mem_nil, resumes, .bottom⟩
        rw [HashSet.mem_insert, beq_iff_eq]
        simp only [owners, List.map_cons, List.map_nil, List.mem_singleton]
        exact ⟨fun hm => (hm.resolve_right (idle other)).symm, fun e => .inl e.symm⟩
      obtain ⟨hr, settled⟩ := Walk.run_spec hd _ inv
      simp only [valueOf, hf]
      exact ⟨hr, rfl, hd, settled.sound, settled.not_mem_abandon⟩

/-- Requests keep a resolution consistent. -/
theorem after_consistent (h : Consistent vars r) (names : List String) :
    Consistent vars (r.after names) := by
  induction names generalizing r with
  | nil => exact h
  | cons name names ih => exact ih (valueOf_spec h name).2

/-- The request for a list of variables asks for one after the other, up to the first that fails. -/
theorem valuesOf_spec (h : Consistent vars r) :
    ∀ (vs : List Variable) (done : List (String × Binary64)), r.valuesOf done vs =
      (naiveAll vars vs).map (done.reverse ++ ·) := by
  intro vs
  induction vs generalizing r with
  | nil =>
    intro done
    simp [valuesOf, naiveAll, Except.map, pure, Except.pure]
  | cons v vs ih =>
    intro done
    obtain ⟨hv, hc⟩ := valueOf_spec h v.name.text
    unfold valuesOf naiveAll
    rw [List.mapM_cons, ← hv]
    rcases hr : r.valueOf v.name.text with ⟨r', result⟩
    rw [hr] at hc
    cases result with
    | error failure => rfl
    | ok x =>
      simp only
      rw [ih hc]
      unfold naiveAll
      cases hm : vs.mapM fun v => (naive vars [] v.name.text).map fun x => (v.name.text, x) with
      | error failure => rfl
      | ok xs =>
        show Except.ok _ = Except.ok _
        simp

/-- The request for all variables. -/
theorem all_spec (h : Consistent vars r) :
    r.all = naiveAll vars vars := by
  unfold all
  rw [h.vars_eq, valuesOf_spec h]
  cases naiveAll vars vars <;> rfl

end

/-- **Answers after any requests**: over distinct names a resolution starts, and after any requests,
of whatever names and whatever came of them, a name has the answer of the recursive reading, and all
variables have theirs, or the first failure among them. -/
theorem answers_eq_naive (vars : List Variable) (distinct : (namesOf vars).Nodup) :
    ∃ r, start vars = .ok r ∧ ∀ names : List String,
      (∀ name, ((r.after names).valueOf name).2 = naive vars [] name) ∧
        (r.after names).all = naiveAll vars vars := by
  obtain ⟨r, hs, hr⟩ := start_spec distinct
  refine ⟨r, hs, fun names => ?_⟩
  have h := after_consistent hr names
  exact ⟨fun name => (valueOf_spec h name).1, all_spec h⟩

/-- Two names that refer to each other, and a constant. -/
def loop : List Variable :=
  [⟨⟨"A", by decide⟩, .dynamic, "B + C"⟩, ⟨⟨"B", by decide⟩, .dynamic, "A"⟩,
    ⟨⟨"C", by decide⟩, .constant, "2"⟩]

/-- The cycle is reported at the name it closes at, also after requests that failed. -/
theorem loop_circular : (namesOf loop).Nodup ∧ ∃ r, start loop = .ok r ∧
    ((r.after ["A", "C", "X"]).valueOf "B").2 = .error (.within "A" (.circularDependency "B")) := by
  have distinct : (namesOf loop).Nodup := by decide
  obtain ⟨r, hs, h⟩ := answers_eq_naive loop distinct
  refine ⟨distinct, r, hs, ?_⟩
  rw [(h ["A", "C", "X"]).1 "B"]
  cbv

end Reckoner.Resolution
