import Reckoner.Proofs.Resolution.Naive

/-!
# The walk finds the meaning

The walk keeps its own stack and the values found so far. It is tied to the recursive reading `naive`
frame by frame:

* `Frame.resume` is what the recursive reading makes of the rest of a frame's expression, and
  `Frame.await` the same for a frame that waits for the variable above it;
* the invariant (`Walk.Inv`) says that every frame, finished this way, has the value of its own
  variable, that the values kept have derivations, and that the names under way are the owners of the
  frames;
* a step keeps the invariant or ends with the answer for the root (`Walk.step_spec`), so a run ends
  with it (`Walk.run_spec`), and whatever it ends with, no name is left under way
  (`Walk.Settled.not_mem_abandon`).

A value kept from before may be used under any chain of variables under way: each of them depends on
the name looked up, so that name, which has a value, depends on none of them (`entry_spec`).
-/

namespace Reckoner

open Std (HashMap HashSet)
open Relation (TransGen ReflTransGen)

/-! ## 1. Moving the cursor -/

namespace Frame

/-- Up to a reference: it is the first of those left. -/
theorem seek_some : ∀ {rest seen seen' rest' : List Lexeme} {name : String},
    seek seen rest = (some name, seen', rest') →
      seen'.reverse ++ rest' = seen.reverse ++ rest ∧
        Lexeme.references rest = name :: Lexeme.references rest'
  | [], _, _, _, _, h => by simp [seek] at h
  | l :: rest, seen, seen', rest', name, h => by
      simp only [seek] at h
      split at h
      · rename_i other hl
        cases h
        refine ⟨by simp, ?_⟩
        unfold Lexeme.references
        rw [List.filterMap_cons_some hl]
      · rename_i hl
        obtain ⟨hs, hr⟩ := seek_some h
        refine ⟨by simpa using hs, ?_⟩
        unfold Lexeme.references at hr ⊢
        rw [List.filterMap_cons_none hl, hr]

/-- Without a reference: the cursor is at the end. -/
theorem seek_none : ∀ {rest seen seen' rest' : List Lexeme},
    seek seen rest = (none, seen', rest') →
      rest' = [] ∧ seen'.reverse ++ rest' = seen.reverse ++ rest ∧ Lexeme.references rest = []
  | [], _, _, _, h => by
      simp only [seek] at h
      cases h
      exact ⟨rfl, rfl, rfl⟩
  | l :: rest, seen, seen', rest', h => by
      simp only [seek] at h
      split at h
      · cases h
      · rename_i hl
        obtain ⟨he, hs, hr⟩ := seek_none h
        refine ⟨he, by simpa using hs, ?_⟩
        unfold Lexeme.references at hr ⊢
        rw [List.filterMap_cons_none hl, hr]

section Advance

variable {f f' : Frame} {name : String}

theorem advance_some (h : f.advance = (some name, f')) :
    f'.owner = f.owner ∧ f'.bound = f.bound ∧ f'.lexemes = f.lexemes ∧
      Lexeme.references f.rest = name :: Lexeme.references f'.rest := by
  obtain ⟨owner, seen, rest, bound⟩ := f
  rcases hs : seek seen rest with ⟨reference, seen', rest'⟩
  simp only [advance, hs] at h
  cases h
  obtain ⟨e, hr⟩ := seek_some hs
  exact ⟨rfl, rfl, e, hr⟩

theorem advance_none (h : f.advance = (none, f')) :
    f'.owner = f.owner ∧ f'.bound = f.bound ∧ f'.lexemes = f.lexemes ∧
      Lexeme.references f.rest = [] := by
  obtain ⟨owner, seen, rest, bound⟩ := f
  rcases hs : seek seen rest with ⟨reference, seen', rest'⟩
  simp only [advance, hs] at h
  cases h
  obtain ⟨-, e, hr⟩ := seek_none hs
  exact ⟨rfl, rfl, e, hr⟩

end Advance

/-! ## 2. What is left of an expression -/

section Resume

variable (vars : List Variable) (path : List String)

/-- The value of a frame's variable, when the references not yet bound are worked out along the
path below it. -/
def resume (f : Frame) : Except Failure Binary64 := do
  let xs ← (Lexeme.references f.rest).mapM fun name =>
    (naive vars (f.owner :: path) name).mapError (Failure.blame f.owner)
  ({ f with bound := xs.reverse ++ f.bound }.evaluate).mapError (Failure.within f.owner)

/-- The same for a frame that waits for the value of `child`, the reference before its cursor. -/
def await (f : Frame) (child : String) : Except Failure Binary64 :=
  match naive vars (f.owner :: path) child with
  | .ok x => (f.push x).resume vars path
  | .error failure => .error (failure.blame f.owner)

variable {vars path} {f f' : Frame} {name : String}

theorem await_ok {x : Binary64} (h : naive vars (f.owner :: path) name = .ok x) :
    f.await vars path name = (f.push x).resume vars path := by
  unfold await
  rw [h]

theorem await_error {failure : Failure}
    (h : naive vars (f.owner :: path) name = .error failure) :
    f.await vars path name = .error (failure.blame f.owner) := by
  unfold await
  rw [h]

/-- The value of an expression depends on its lexemes and the values bound, not on the cursor. -/
theorem evaluate_congr {g : Frame} (hl : g.lexemes = f.lexemes) (hb : g.bound = f.bound) :
    g.evaluate = f.evaluate := by
  unfold evaluate tokens
  rw [hl, hb]

theorem resume_of_advance (h : f.advance = (some name, f')) :
    f.resume vars path = f'.await vars path name := by
  obtain ⟨ho, hb, hl, hr⟩ := advance_some h
  unfold resume await
  rw [hr, List.mapM_cons, ho]
  cases hn : naive vars (f.owner :: path) name with
  | error failure => rfl
  | ok x =>
    simp only [resume, push, ho]
    cases hm : (Lexeme.references f'.rest).mapM fun other =>
        (naive vars (f.owner :: path) other).mapError (Failure.blame f.owner) with
    | error failure => rfl
    | ok xs =>
      show ({ f with bound := (x :: xs).reverse ++ f.bound }.evaluate).mapError _ =
        ({ f' with bound := xs.reverse ++ x :: f'.bound }.evaluate).mapError _
      rw [evaluate_congr (f := { f' with bound := xs.reverse ++ x :: f'.bound })
        (g := { f with bound := (x :: xs).reverse ++ f.bound }) hl.symm (by simp [hb])]

theorem resume_at_end (h : f.advance = (none, f')) :
    f.resume vars path = f'.evaluate.mapError (Failure.within f'.owner) := by
  obtain ⟨ho, hb, hl, hr⟩ := advance_none h
  unfold resume
  rw [hr, ho, evaluate_congr hl hb]
  rfl

/-- **A variable whose expression is not begun has the value of the recursive reading**: handing out
values by position binds every reference by its name. -/
theorem resume_start {lexemes : List Lexeme}
    (hp : ∀ name, Lexeme.symbol (.placeholder name) ∉ lexemes) :
    (start name lexemes).resume vars path =
      expressionValue name (naive vars (name :: path)) lexemes := by
  unfold resume expressionValue
  simp only [start]
  cases hm : (Lexeme.references lexemes).mapM fun other =>
      (naive vars (name :: path) other).mapError (Failure.blame name) with
  | error failure =>
    rw [Lexeme.bind_error hp hm]
    rfl
  | ok xs =>
    obtain ⟨ts, hb, ht⟩ := Lexeme.bind_takeNext
      (fun other => Failure.within name (.missingContextualValue other)) hp hm
    rw [hb]
    have he : Frame.evaluate ⟨name, [], lexemes, xs.reverse ++ []⟩ = Token.evaluate ts := by
      have := ht []
      simp only [List.append_nil] at this
      simp only [evaluate, tokens, Frame.lexemes, List.append_nil, List.reverse_reverse,
        List.reverse_nil, List.nil_append, StateT.run'_eq, this]
      rfl
    show (Frame.evaluate ⟨name, [], lexemes, xs.reverse ++ []⟩).mapError _ = _
    rw [he]
    rfl

end Resume

/-- A frame is that of a dynamic variable, and holds its expression. -/
def Reads (vars : List Variable) (f : Frame) : Prop :=
  ∃ v, definition? vars f.owner = some v ∧ v.kind = .dynamic ∧
    Lexeme.ofText .dynamic v.text = .ok f.lexemes

theorem Reads.congr {vars : List Variable} {f g : Frame} (h : f.Reads vars)
    (ho : g.owner = f.owner) (hl : g.lexemes = f.lexemes) : g.Reads vars := by
  unfold Reads
  rw [ho, hl]
  exact h

/-- The reference before the cursor is one of the expression. -/
theorem Reads.refersTo {vars : List Variable} {f f' : Frame} {name : String} (h : f.Reads vars)
    (ha : f.advance = (some name, f')) : RefersTo vars f.owner name := by
  obtain ⟨v, found, kind, read⟩ := h
  obtain ⟨-, -, -, hr⟩ := advance_some ha
  refine ⟨v, _, found, kind, read, ?_⟩
  have hm : name ∈ Lexeme.references f.rest := by
    rw [hr]
    exact List.mem_cons_self
  unfold Lexeme.references lexemes at *
  rw [List.filterMap_append]
  exact List.mem_append_right _ hm

end Frame

/-! ## 3. The invariant -/

/-- Every value kept has a derivation. -/
def Sound (vars : List Variable) (values : HashMap String Binary64) : Prop :=
  ∀ name x, values[name]? = some x → Means vars name x

theorem Sound.insert {vars : List Variable} {values : HashMap String Binary64}
    (h : Sound vars values) {name : String} {x : Binary64} (hx : Means vars name x) :
    Sound vars (values.insert name x) := by
  intro other y hy
  rw [HashMap.getElem?_insert] at hy
  split at hy
  · rename_i e
    cases hy
    have e' : name = other := by simpa using e
    exact e' ▸ hx
  · exact h other y hy

/-- The variables of a stack of frames. -/
def owners (stack : List Frame) : List String :=
  stack.map Frame.owner

/-- **Frames that wait**, each for the variable of the frame above it (`child` for the first one), the
last for the answer for `root`. -/
inductive Awaits (vars : List Variable) (root : String) : List Frame → String → Prop
  | bottom : Awaits vars root [] root
  | above {f : Frame} {below : List Frame} {child : String} (reads : f.Reads vars)
      (refers : RefersTo vars f.owner child) (fresh : f.owner ∉ owners below)
      (resumes : f.await vars (owners below) child = naive vars (owners below) f.owner)
      (rest : Awaits vars root below f.owner) : Awaits vars root (f :: below) child

namespace Walk

/-- What holds of a walk also at its end. -/
structure Settled (vars : List Variable) (w : Walk) : Prop where
  sound : Sound vars w.values
  active : ∀ name, name ∈ w.active ↔ name ∈ owners w.stack

/-- **The invariant of the walk.** -/
structure Inv (vars : List Variable) (root : String) (w : Walk) (top : Frame) (below : List Frame) :
    Prop where
  stack : w.stack = top :: below
  settled : Settled vars w
  reads : top.Reads vars
  fresh : top.owner ∉ owners below
  resumes : top.resume vars (owners below) = naive vars (owners below) top.owner
  awaits : Awaits vars root below top.owner

end Walk

section Awaits

variable {vars : List Variable} {root child : String} {below : List Frame}

/-- Every variable that waits depends on the one on top. -/
theorem Awaits.depends (h : Awaits vars root below child) :
    ∀ p ∈ owners below, TransGen (RefersTo vars) p child := by
  induction h with
  | bottom => exact fun _ hp => absurd hp List.not_mem_nil
  | above _ refers _ _ _ ih =>
    intro p hp
    rcases List.mem_cons.mp hp with rfl | hp
    · exact .single refers
    · exact (ih p hp).tail refers

/-- **A fault laid to a variable goes down to the root as it is.** -/
theorem Awaits.fails (h : Awaits vars root below child) {owner : String} {fault : Fault}
    (hf : naive vars (owners below) child = .error (.within owner fault)) :
    naive vars [] root = .error (.within owner fault) := by
  induction h with
  | bottom => exact hf
  | @above f below child _ _ _ resumes _ ih =>
    refine ih ?_
    have hf' : naive vars (f.owner :: owners below) child = .error (.within owner fault) := hf
    rw [← resumes, Frame.await_error hf']
    rfl

end Awaits

/-! ## 4. Looking a name up -/

section Entry

variable {vars : List Variable} {definitions : HashMap String Variable}
  {values : HashMap String Binary64} {active : HashSet String}

/-- **What a look-up finds is what the recursive reading says.** -/
theorem entry_spec (path : List String) (name : String)
    (hd : ∀ name, definitions[name]? = definition? vars name) (sound : Sound vars values)
    (ha : ∀ name, name ∈ active ↔ name ∈ path)
    (hp : ∀ p ∈ path, TransGen (RefersTo vars) p name) :
    match Entry.of definitions values active name with
    | .ok (.known x) => naive vars path name = .ok x
    | .ok (.constant x) => naive vars path name = .ok x
    | .ok (.descend child) => child.owner = name ∧ name ∉ path ∧ child.Reads vars ∧
        child.resume vars path = naive vars path name
    | .error failure => naive vars path name = .error failure := by
  unfold Entry.of
  rw [hd]
  cases hv : values[name]? with
  | some x =>
    have hx := sound name x hv
    exact hx.naive fun p hm back => hx.acyclic (TransGen.trans_right back (hp p hm))
  | none =>
    simp only
    cases found : definition? vars name with
    | none => exact naive_undefined found
    | some v =>
      by_cases busy : name ∈ path
      · have hc : active.contains name = true := HashSet.contains_iff_mem.mpr ((ha name).mpr busy)
        simp only [hc, if_true]
        exact naive_circular found busy
      · have hc : active.contains name = false := by
          rw [← Bool.not_eq_true, HashSet.contains_iff_mem, ha]
          exact busy
        simp only [hc, Bool.false_eq_true, if_false]
        have hn := naive_defined found busy
        cases kind : v.kind with
        | constant =>
          rw [kind] at hn
          cases read : Number.ofConstant? v.text with
          | none => rw [read] at hn; exact hn
          | some x => rw [read] at hn; exact hn
        | dynamic =>
          rw [kind] at hn
          cases read : Lexeme.ofText .dynamic v.text with
          | error fault => rw [read] at hn; exact hn
          | ok lexemes =>
            rw [read] at hn
            exact ⟨rfl, busy, ⟨v, found, kind, read⟩,
              (Frame.resume_start (Lexeme.no_placeholder read)).trans hn.symm⟩

end Entry

/-! ## 5. A step and a run -/

namespace Walk

/-- What a step of a walk for `root` may come to: a walk with the invariant, or an end with the answer
for the root. -/
def Fits (vars : List Variable) (root : String) : Progress → Prop
  | .more w => ∃ top below, Inv vars root w top below
  | .ended w result => result = naive vars [] root ∧ Settled vars w

section Step

variable {vars : List Variable} {root : String} {definitions : HashMap String Variable}
  {values : HashMap String Binary64} {active : HashSet String} {top frame : Frame}
  {below : List Frame}

/-- The names under way once the top frame is taken away. -/
theorem erase_active (ha : ∀ name, name ∈ active ↔ name ∈ owners (top :: below))
    (fresh : top.owner ∉ owners below) (name : String) :
    name ∈ active.erase top.owner ↔ name ∈ owners below := by
  rw [HashSet.mem_erase, ha]
  constructor
  · rintro ⟨hne, hm⟩
    rcases List.mem_cons.mp hm with rfl | hm
    · simp at hne
    · exact hm
  · intro hm
    refine ⟨?_, List.mem_cons_of_mem _ hm⟩
    have : top.owner ≠ name := fun e => fresh (e ▸ hm)
    simpa using this

/-- No reference is left: the top frame is evaluated, and its value handed down. -/
theorem step_at_end (inv : Inv vars root ⟨values, active, top :: below⟩ top below)
    (hadv : top.advance = (none, frame)) :
    Fits vars root (step definitions ⟨values, active, top :: below⟩) := by
  obtain ⟨-, ⟨sound, ha⟩, -, fresh, resumes, awaits⟩ := inv
  obtain ⟨ho, -, -, -⟩ := Frame.advance_none hadv
  have hend := resumes.symm.trans (Frame.resume_at_end hadv)
  cases he : frame.evaluate with
  | error fault =>
    rw [he] at hend
    have hstep : step definitions ⟨values, active, top :: below⟩ =
        .ended ⟨values, active, frame :: below⟩ (.error (.within frame.owner fault)) := by
      simp only [step, hadv, he]
    rw [hstep]
    exact ⟨(awaits.fails hend).symm, sound, by simpa [owners, ho] using ha⟩
  | ok x =>
    rw [he] at hend
    have sound' := sound.insert (means_of_naive _ _ hend)
    have ha' := erase_active ha fresh
    cases awaits with
    | bottom =>
      have hstep : step definitions ⟨values, active, [top]⟩ =
          .ended ⟨values.insert top.owner x, active.erase top.owner, []⟩ (.ok x) := by
        simp only [step, hadv, he, ho]
      rw [hstep]
      exact ⟨hend.symm, sound', ha'⟩
    | @above parent below _ preads _ pfresh presumes pawaits =>
      have hstep : step definitions ⟨values, active, top :: parent :: below⟩ =
          .more ⟨values.insert top.owner x, active.erase top.owner, parent.push x :: below⟩ := by
        simp only [step, hadv, he, ho]
      rw [hstep]
      exact ⟨parent.push x, below, rfl, ⟨sound', ha'⟩, preads, pfresh,
        (Frame.await_ok hend).symm.trans presumes, pawaits⟩

/-- A reference is looked up: it has a value, or is put under way, or has a fault. -/
theorem step_reference {name : String} (hd : ∀ name, definitions[name]? = definition? vars name)
    (inv : Inv vars root ⟨values, active, top :: below⟩ top below)
    (hadv : top.advance = (some name, frame)) :
    Fits vars root (step definitions ⟨values, active, top :: below⟩) := by
  obtain ⟨-, ⟨sound, ha⟩, reads, fresh, resumes, awaits⟩ := inv
  obtain ⟨ho, -, hl, -⟩ := Frame.advance_some hadv
  have refers : RefersTo vars top.owner name := reads.refersTo hadv
  have hawait := (Frame.resume_of_advance hadv).symm.trans resumes
  have hp : ∀ p ∈ owners (top :: below), TransGen (RefersTo vars) p name := by
    intro p hp
    rcases List.mem_cons.mp hp with rfl | hp
    · exact .single refers
    · exact (awaits.depends p hp).tail refers
  have hentry := entry_spec (owners (top :: below)) name hd sound ha hp
  -- from here on the frame with its cursor moved stands for the top frame
  simp only [owners, List.map_cons, ← ho] at ha hentry refers fresh hawait awaits
  have reads' : frame.Reads vars := reads.congr ho hl
  cases hf : Entry.of definitions values active name with
  | error failure =>
    rw [hf] at hentry
    have hstep : step definitions ⟨values, active, top :: below⟩ =
        .ended ⟨values, active, frame :: below⟩ (.error (failure.blame frame.owner)) := by
      simp only [step, hadv, hf]
    rw [hstep]
    obtain ⟨owner, fault, hb⟩ := Failure.blame_eq frame.owner failure
    rw [Frame.await_error hentry, hb] at hawait
    rw [hb]
    exact ⟨(awaits.fails hawait.symm).symm, sound, ha⟩
  | ok entry =>
    rw [hf] at hentry
    cases entry with
    | known x =>
      have hstep : step definitions ⟨values, active, top :: below⟩ =
          .more ⟨values, active, frame.push x :: below⟩ := by
        simp only [step, hadv, hf]
      rw [hstep]
      exact ⟨frame.push x, below, rfl, ⟨sound, ha⟩, reads', fresh,
        (Frame.await_ok hentry).symm.trans hawait, awaits⟩
    | constant x =>
      have hstep : step definitions ⟨values, active, top :: below⟩ =
          .more ⟨values.insert name x, active, frame.push x :: below⟩ := by
        simp only [step, hadv, hf]
      rw [hstep]
      exact ⟨frame.push x, below, rfl, ⟨sound.insert (means_of_naive _ _ hentry), ha⟩, reads', fresh,
        (Frame.await_ok hentry).symm.trans hawait, awaits⟩
    | descend child =>
      have hstep : step definitions ⟨values, active, top :: below⟩ =
          .more ⟨values, active.insert name, child :: frame :: below⟩ := by
        simp only [step, hadv, hf]
      rw [hstep]
      obtain ⟨rfl, cfresh, creads, cresumes⟩ := hentry
      refine ⟨child, frame :: below, rfl, ⟨sound, fun other => ?_⟩, creads, cfresh, cresumes,
        .above reads' refers fresh hawait awaits⟩
      rw [HashSet.mem_insert, ha, beq_iff_eq, eq_comm]
      exact List.mem_cons.symm

/-- **A step keeps the invariant, or ends with the answer for the root.** -/
theorem step_spec (hd : ∀ name, definitions[name]? = definition? vars name) {w : Walk}
    (inv : Inv vars root w top below) : Fits vars root (w.step definitions) := by
  obtain ⟨values, active, stack⟩ := w
  have hs : stack = top :: below := inv.stack
  subst hs
  rcases hadv : top.advance with ⟨_ | name, frame⟩
  · exact step_at_end inv hadv
  · exact step_reference hd inv hadv

/-- **A run ends with the answer for the root.** -/
theorem run_spec (hd : ∀ name, definitions[name]? = definition? vars name) (w : Walk) :
    ∀ {top : Frame} {below : List Frame}, Inv vars root w top below →
      (w.run definitions).2 = naive vars [] root ∧ Settled vars (w.run definitions).1 := by
  fun_induction run definitions w with
  | case1 w w' h ih =>
    intro top below inv
    have hfit := step_spec hd inv
    rw [h] at hfit
    obtain ⟨top', below', inv'⟩ := hfit
    exact ih inv'
  | case2 w w' result h =>
    intro top below inv
    have hfit := step_spec hd inv
    rw [h] at hfit
    exact hfit

/-- Erasing the owners of frames leaves the other names. -/
theorem mem_foldl_erase : ∀ {stack : List Frame} {active : HashSet String} {name : String},
    name ∈ stack.foldl (fun active frame => active.erase frame.owner) active ↔
      name ∈ active ∧ name ∉ owners stack
  | [], _, _ => by simp [owners]
  | frame :: stack, active, name => by
      rw [List.foldl_cons, mem_foldl_erase, HashSet.mem_erase]
      simp only [owners, List.map_cons, List.mem_cons, not_or, beq_eq_false_iff_ne, ne_eq]
      constructor
      · rintro ⟨⟨hne, hm⟩, hn⟩
        exact ⟨hm, fun e => hne e.symm, hn⟩
      · rintro ⟨hm, hne, hn⟩
        exact ⟨⟨fun e => hne e.symm, hm⟩, hn⟩

/-- **No name is left under way**, whether the walk came to a value or was given up. -/
theorem Settled.not_mem_abandon {w : Walk} (h : Settled vars w) (name : String) :
    name ∉ w.abandon := by
  unfold abandon
  rw [mem_foldl_erase, h.active]
  exact fun ⟨hm, hn⟩ => hn hm

end Step

end Walk

end Reckoner
