import Reckoner.Proofs.Resolution.Refinement

/-!
# A resolution ends and repeats nothing

A walk both puts frames on its stack and takes them away, so nothing in its state counts down. What a
step can do is said once (`Walk.Moves`): the cursor of the top frame advances, and a frame may be put on
top; or the frame is taken away, its variable having its value from now on; or the walk ends with a
failure. The **course** of a walk (`Walk.Course`) lists its iterations, from the first to the one that
ends it. That there is one says that the walk ends.

Three laws of a single step carry the rest, each added up along the course:

* a name that has a value or is under way stays so, and only other names are put under way
  (`Walk.Course.met`): so **no variable gets a frame twice**;
* the frames on the stack and those put on it are the frames evaluated and those left
  (`Walk.Course.frames`): so **no expression is evaluated twice**, as it is evaluated in its only frame;
* an iteration moves a cursor or takes a frame away (`Walk.Course.length_le`), so there are no more of
  them than the expressions met have lexemes, and one more for each.

The request for all variables asks for one after the other. What one request has asked for or put under
way has a value afterwards, and so is put under way by no later one (`Resolution.Requests.unrepeated`);
behind all of them each variable has one (`Resolution.known_of_valuesOf`).
-/

namespace Reckoner

open Std (HashMap HashSet)

/-! ## 1. What a step can do -/

/-- A cursor that finds a reference advances. -/
theorem Frame.advance_further {f f' : Frame} {name : String} (h : f.advance = (some name, f')) :
    f'.rest.length < f.rest.length := by
  obtain ⟨owner, seen, rest, bound⟩ := f
  rcases found : seek seen rest with ⟨reference, seen', rest'⟩
  simp only [advance, found] at h
  cases h
  exact seek_length_lt found

/-- The number of lexemes of an expression, and one more for its evaluation. -/
def expressionSize (definitions : HashMap String Variable) (name : String) : Nat :=
  match definitions[name]? with
  | none => 0
  | some v =>
    match Lexeme.ofText .dynamic v.text with
    | .ok lexemes => lexemes.length + 1
    | .error _ => 0

/-- **What a look-up that succeeds has found.** -/
inductive Entry.Found (definitions : HashMap String Variable) (values : HashMap String Binary64)
    (active : HashSet String) (name : String) : Entry → Prop
  /-- A variable whose value is kept. -/
  | known {x : Binary64} (kept : values[name]? = some x) :
      Found definitions values active name (.known x)
  /-- A constant that has no value yet and is not under way. -/
  | constant {v : Variable} {x : Binary64} (unknown : name ∉ values) (idle : name ∉ active)
      (defined : definitions[name]? = some v) (kind : v.kind = .constant)
      (read : Number.ofConstant? v.text = some x) :
      Found definitions values active name (.constant x)
  /-- A dynamic variable that has no value yet and is not under way, with its expression. -/
  | descend {v : Variable} {lexemes : List Lexeme} (unknown : name ∉ values) (idle : name ∉ active)
      (defined : definitions[name]? = some v) (kind : v.kind = .dynamic)
      (read : Lexeme.ofText .dynamic v.text = .ok lexemes) :
      Found definitions values active name (.descend (.start name lexemes))

/-- **A look-up succeeds in no other way.** -/
theorem Entry.found {definitions : HashMap String Variable} {values : HashMap String Binary64}
    {active : HashSet String} {name : String} {entry : Entry}
    (h : Entry.of definitions values active name = .ok entry) :
    Entry.Found definitions values active name entry := by
  unfold Entry.of at h
  cases kept : values[name]? with
  | some x =>
    rw [kept] at h
    cases h
    exact .known kept
  | none =>
    have unknown : name ∉ values := by simpa using kept
    cases defined : definitions[name]? with
    | none =>
      rw [kept, defined] at h
      cases h
    | some v =>
      simp only [kept, defined] at h
      split at h
      · cases h
      · rename_i busy
        have idle : name ∉ active := by simpa using busy
        cases kind : v.kind with
        | constant =>
          cases read : Number.ofConstant? v.text with
          | none =>
            rw [kind, read] at h
            cases h
          | some x =>
            rw [kind, read] at h
            cases h
            exact .constant unknown idle defined kind read
        | dynamic =>
          cases read : Lexeme.ofText .dynamic v.text with
          | error fault =>
            rw [kind, read] at h
            cases h
          | ok lexemes =>
            rw [kind, read] at h
            cases h
            exact .descend unknown idle defined kind read

/-- A frame that is put on the stack holds the whole expression of its variable. -/
theorem Entry.descend_start {definitions : HashMap String Variable} {values : HashMap String Binary64}
    {active : HashSet String} {name : String} {child : Frame}
    (h : Entry.of definitions values active name = .ok (.descend child)) :
    child.owner = name ∧ child.rest.length + 1 = expressionSize definitions name := by
  cases Entry.found h with
  | descend _ _ defined _ read =>
    simp only [expressionSize, defined, read]
    exact ⟨rfl, rfl⟩

namespace Walk

/-- **What an iteration does.** -/
inductive Moves (definitions : HashMap String Variable) : Walk → Progress → Prop
  /-- The cursor of the top frame advances to a reference that has a value. -/
  | binds {values values' : HashMap String Binary64} {active : HashSet String} {top frame : Frame}
      {below : List Frame} {name : String} {x : Binary64} (cursor : top.advance = (some name, frame))
      (further : frame.rest.length < top.rest.length)
      (kept : ∀ other, other ∈ values → other ∈ values') :
      Moves definitions ⟨values, active, top :: below⟩
        (.more ⟨values', active, frame.push x :: below⟩)
  /-- The cursor of the top frame advances to a reference that gets a frame of its own. -/
  | descends {values : HashMap String Binary64} {active : HashSet String} {top frame child : Frame}
      {below : List Frame} {name : String} (cursor : top.advance = (some name, frame))
      (further : frame.rest.length < top.rest.length)
      (entry : Entry.of definitions values active name = .ok (.descend child)) :
      Moves definitions ⟨values, active, top :: below⟩
        (.more ⟨values, active.insert name, child :: frame :: below⟩)
  /-- The top frame is taken away; its variable has its value, and so has the frame below. -/
  | hands {values : HashMap String Binary64} {active : HashSet String} {top frame parent : Frame}
      {below : List Frame} {x : Binary64} (atEnd : top.advance = (none, frame))
      (evaluated : frame.evaluate = .ok x) :
      Moves definitions ⟨values, active, top :: parent :: below⟩
        (.more ⟨values.insert top.owner x, active.erase top.owner, parent.push x :: below⟩)
  /-- The last frame is taken away; its variable has its value, and the walk ends with it. -/
  | answers {values : HashMap String Binary64} {active : HashSet String} {top frame : Frame}
      {x : Binary64} (atEnd : top.advance = (none, frame)) (evaluated : frame.evaluate = .ok x) :
      Moves definitions ⟨values, active, [top]⟩
        (.ended ⟨values.insert top.owner x, active.erase top.owner, []⟩ (.ok x))
  /-- The walk ends with a failure. -/
  | fails {values : HashMap String Binary64} {active : HashSet String} {stack stack' : List Frame}
      {failure : Failure} :
      Moves definitions ⟨values, active, stack⟩ (.ended ⟨values, active, stack'⟩ (.error failure))

/-- **A step does nothing else.** -/
theorem step_moves (definitions : HashMap String Variable) (w : Walk) :
    Moves definitions w (w.step definitions) := by
  obtain ⟨values, active, stack⟩ := w
  cases stack with
  | nil => exact .fails
  | cons top below =>
    rcases cursor : top.advance with ⟨_ | name, frame⟩
    · have owner := (Frame.advance_none cursor).1
      cases evaluated : frame.evaluate with
      | error fault =>
        simp only [step, cursor, evaluated]
        exact .fails
      | ok x =>
        cases below with
        | nil =>
          simp only [step, cursor, evaluated, owner]
          exact .answers cursor evaluated
        | cons parent below =>
          simp only [step, cursor, evaluated, owner]
          exact .hands cursor evaluated
    · have further := Frame.advance_further cursor
      cases entry : Entry.of definitions values active name with
      | error failure =>
        simp only [step, cursor, entry]
        exact .fails
      | ok found =>
        cases found with
        | known x =>
          simp only [step, cursor, entry]
          exact .binds cursor further fun _ => id
        | constant x =>
          simp only [step, cursor, entry]
          exact .binds cursor further fun _ known => HashMap.mem_insert.mpr (.inr known)
        | descend child =>
          simp only [step, cursor, entry]
          exact .descends cursor further entry

/-! ## 2. The course of a walk -/

/-- A state of the walk and what the step from it comes to. -/
structure Iteration where
  before : Walk
  result : Progress

/-- The variables that get a frame in an iteration. -/
def Iteration.descended : Iteration → List String
  | ⟨w, .more next⟩ => owners (next.stack.take (next.stack.length - w.stack.length))
  | ⟨_, .ended _ _⟩ => []

/-- The variables whose expression is evaluated in an iteration: that of the top frame, if no reference
is left in it. -/
def Iteration.evaluated (i : Iteration) : List String :=
  match i.before.stack with
  | [] => []
  | top :: _ => if top.advance.1.isNone then [top.owner] else []

/-- **The course of a walk**: its iterations up to its end. -/
inductive Course (definitions : HashMap String Variable) :
    Walk → List Iteration → Walk → Except Failure Binary64 → Prop
  | ends {w w' : Walk} {answer : Except Failure Binary64}
      (last : w.step definitions = .ended w' answer) :
      Course definitions w [⟨w, .ended w' answer⟩] w' answer
  | goesOn {w next w' : Walk} {is : List Iteration} {answer : Except Failure Binary64}
      (first : w.step definitions = .more next) (others : Course definitions next is w' answer) :
      Course definitions w (⟨w, .more next⟩ :: is) w' answer

/-- **A walk ends**: it has a course, up to what running it gives. -/
theorem exists_course (definitions : HashMap String Variable) (w : Walk) :
    ∃ is, Course definitions w is (w.run definitions).1 (w.run definitions).2 := by
  fun_induction run definitions w with
  | case1 w next first ih =>
    obtain ⟨is, others⟩ := ih
    exact ⟨_, .goesOn first others⟩
  | case2 w w' answer last => exact ⟨_, .ends last⟩

section

variable {definitions : HashMap String Variable} {w w' next : Walk} {is : List Iteration}
  {answer : Except Failure Binary64}

theorem moves_of_step {p : Progress} (h : w.step definitions = p) : Moves definitions w p :=
  h ▸ step_moves definitions w

/-- Every iteration of a course is one of the walk. -/
theorem Course.moves (h : Course definitions w is w' answer) :
    ∀ i ∈ is, Moves definitions i.before i.result := by
  induction h with
  | ends last => exact List.forall_mem_singleton.mpr (moves_of_step last)
  | goesOn first _ ih => exact List.forall_mem_cons.mpr ⟨moves_of_step first, ih⟩

/-! ## 3. No variable gets a frame twice -/

/-- A name has a value or is under way. -/
def Met (w : Walk) (name : String) : Prop :=
  name ∈ w.values ∨ name ∈ w.active

/-- What a step leaves behind a name that becomes known and is under way no longer. -/
theorem met_finished {values : HashMap String Binary64} {active : HashSet String} {owner name : String}
    {x : Binary64} (h : name ∈ values ∨ name ∈ active) :
    name ∈ values.insert owner x ∨ name ∈ active.erase owner := by
  by_cases same : owner = name
  · exact .inl (HashMap.mem_insert.mpr (.inl (by simpa using same)))
  · exact h.imp (fun known => HashMap.mem_insert.mpr (.inr known))
      fun busy => HashSet.mem_erase.mpr ⟨by simpa using same, busy⟩

/-- **A step puts only a name under way that was not met**, and what was met or is put under way stays
met. -/
theorem Moves.met (h : Moves definitions w (.more next)) :
    (Iteration.descended ⟨w, .more next⟩).Nodup ∧
      (∀ name ∈ Iteration.descended ⟨w, .more next⟩, ¬ w.Met name) ∧
        ∀ name, w.Met name ∨ name ∈ Iteration.descended ⟨w, .more next⟩ → next.Met name := by
  cases h with
  | binds cursor further kept =>
    simp only [Iteration.descended, List.length_cons, Nat.sub_self, List.take_zero, owners,
      List.map_nil, List.not_mem_nil, or_false, List.nodup_nil, false_imp_iff, implies_true, true_and]
    exact fun name met => met.imp (kept name) id
  | @descends values active top frame child below name cursor further entry =>
    obtain ⟨-, unknown, idle⟩ := Entry.descend_of entry
    obtain ⟨owner, -⟩ := Entry.descend_start entry
    have new : Iteration.descended ⟨⟨values, active, top :: below⟩,
        .more ⟨values, active.insert name, child :: frame :: below⟩⟩ = [name] := by
      simp [Iteration.descended, owners, owner]
    rw [new]
    refine ⟨List.nodup_singleton name, List.forall_mem_singleton.mpr (not_or.mpr ⟨unknown, idle⟩),
      fun other h => ?_⟩
    rcases h with (known | busy) | same
    · exact .inl known
    · exact .inr (HashSet.mem_insert.mpr (.inr busy))
    · exact .inr (HashSet.mem_insert.mpr (.inl (by simpa using (List.mem_singleton.mp same).symm)))
  | @hands values active top frame parent below x atEnd evaluated =>
    have new : Iteration.descended ⟨⟨values, active, top :: parent :: below⟩,
        .more ⟨values.insert top.owner x, active.erase top.owner, parent.push x :: below⟩⟩ = [] := by
      simp [Iteration.descended, owners]
    rw [new]
    exact ⟨List.nodup_nil, fun _ h => absurd h List.not_mem_nil,
      fun name h => met_finished (h.resolve_right List.not_mem_nil)⟩

theorem Moves.met_end (h : Moves definitions w (.ended w' answer)) {name : String}
    (met : w.Met name) : w'.Met name := by
  cases h with
  | answers => exact met_finished met
  | fails => exact met

/-- **In the course of a walk no variable gets a frame twice**, and none that was met before; in the end
all of them are met. -/
theorem Course.met (h : Course definitions w is w' answer) :
    (is.flatMap Iteration.descended).Nodup ∧
      (∀ name ∈ is.flatMap Iteration.descended, ¬ w.Met name) ∧
        ∀ name, w.Met name ∨ name ∈ is.flatMap Iteration.descended → w'.Met name := by
  induction h with
  | ends last =>
    have nothing : ∀ {w w' : Walk} {answer}, [(⟨w, .ended w' answer⟩ : Iteration)].flatMap
        Iteration.descended = [] := rfl
    rw [nothing]
    exact ⟨List.nodup_nil, fun _ h => absurd h List.not_mem_nil,
      fun name h => (moves_of_step last).met_end (h.resolve_right List.not_mem_nil)⟩
  | @goesOn w next w' is answer first _ ih =>
    obtain ⟨nodup, fresh, stays⟩ := (moves_of_step first).met
    obtain ⟨nodup', fresh', stays'⟩ := ih
    rw [List.flatMap_cons]
    refine ⟨List.nodup_append.mpr ⟨nodup, nodup', ?_⟩, fun name h => ?_, fun name h => ?_⟩
    · rintro name hn _ hn' rfl
      exact fresh' name hn' (stays name (.inr hn))
    · rcases List.mem_append.mp h with hn | hn'
      · exact fresh name hn
      · exact fun met => fresh' name hn' (stays name (.inl met))
    · rw [List.mem_append, ← or_assoc] at h
      exact stays' name (h.imp_left (stays name))

/-! ## 4. No expression is evaluated twice -/

/-- **Frames on the stack and frames put on it are frames evaluated and frames left.** -/
theorem Moves.frames (h : Moves definitions w (.more next)) :
    (owners w.stack ++ Iteration.descended ⟨w, .more next⟩).Perm
      (Iteration.evaluated ⟨w, .more next⟩ ++ owners next.stack) := by
  cases h with
  | binds cursor further kept =>
    obtain ⟨owner, -⟩ := Frame.advance_some cursor
    simp [Iteration.descended, Iteration.evaluated, owners, cursor, owner, Frame.push]
  | descends cursor further entry =>
    obtain ⟨owner, -⟩ := Frame.advance_some cursor
    simp only [Iteration.descended, Iteration.evaluated, owners, cursor, owner, List.length_cons,
      Option.isNone_some, Bool.false_eq_true, if_false, List.map_cons, List.nil_append,
      Nat.add_sub_cancel_left, List.take_succ_cons, List.take_zero, List.map_nil]
    exact List.perm_append_singleton _ _
  | hands atEnd evaluated =>
    simp [Iteration.descended, Iteration.evaluated, owners, atEnd, Frame.push]

theorem Moves.frames_end (h : Moves definitions w (.ended w' answer)) :
    (Iteration.evaluated ⟨w, .ended w' answer⟩).Subperm (owners w.stack) := by
  obtain ⟨values, active, stack⟩ := w
  unfold Iteration.evaluated
  cases stack with
  | nil => exact List.nil_subperm
  | cons top below =>
    dsimp only
    split
    · exact (List.singleton_sublist.mpr List.mem_cons_self).subperm
    · exact List.nil_subperm

/-- **In the course of a walk an expression is evaluated in a frame of its own**: one that was there, or
one that was put on the stack. -/
theorem Course.frames (h : Course definitions w is w' answer) :
    (is.flatMap Iteration.evaluated).Subperm
      (owners w.stack ++ is.flatMap Iteration.descended) := by
  induction h with
  | ends last =>
    rw [List.flatMap_singleton, List.flatMap_singleton]
    simpa [Iteration.descended] using (moves_of_step last).frames_end
  | @goesOn w next w' is answer first _ ih =>
    have law := (moves_of_step first).frames.append_right (is.flatMap Iteration.descended)
    rw [List.append_assoc, List.append_assoc] at law
    rw [List.flatMap_cons, List.flatMap_cons]
    exact ((List.subperm_append_left _).mpr ih).trans law.symm.subperm

/-! ## 5. How many iterations there are -/

/-- A step makes the stack lighter by one at least, but for a new frame. -/
theorem Moves.weight (h : Moves definitions w (.more next)) : next.weight + 1 ≤ w.weight +
    ((Iteration.descended ⟨w, .more next⟩).map (expressionSize definitions)).sum := by
  cases h with
  | binds cursor further kept =>
    simp only [Walk.weight, List.foldr_cons, Frame.push]
    omega
  | descends cursor further entry =>
    obtain ⟨owner, size⟩ := Entry.descend_start entry
    simp only [Walk.weight, List.foldr_cons, Iteration.descended, owners, List.length_cons,
      Nat.add_sub_cancel_left, List.take_succ_cons, List.take_zero, List.map_cons, List.map_nil, owner,
      List.sum_cons, List.sum_nil, ← size]
    omega
  | hands atEnd evaluated =>
    simp only [Walk.weight, List.foldr_cons, Frame.push]
    omega

/-- A walk that goes on has a frame to go on with. -/
theorem Moves.stack_ne_nil (h : Moves definitions w (.more next)) : next.stack ≠ [] := by
  cases h <;> exact List.cons_ne_nil _ _

theorem weight_pos (busy : w.stack ≠ []) : 1 ≤ w.weight := by
  obtain ⟨values, active, stack⟩ := w
  obtain ⟨top, below, rfl⟩ := List.exists_cons_of_ne_nil busy
  simp only [weight, List.foldr_cons]
  omega

/-- **There are no more iterations than the lexemes and the frames account for.** -/
theorem Course.length_le (h : Course definitions w is w' answer) (busy : w.stack ≠ []) :
    is.length ≤ w.weight +
      ((is.flatMap Iteration.descended).map (expressionSize definitions)).sum := by
  induction h with
  | ends last =>
    have pos := weight_pos busy
    rw [List.length_singleton]
    omega
  | goesOn first _ ih =>
    have moves := moves_of_step first
    have law := moves.weight
    have others := ih moves.stack_ne_nil
    rw [List.length_cons, List.flatMap_cons, List.map_append, List.sum_append]
    omega

/-! ## 6. What a course comes to -/

theorem Moves.stack_of_answer {x : Binary64} (h : Moves definitions w (.ended w' (.ok x))) :
    w'.stack = [] := by
  cases h
  rfl

/-- A walk that ends with a value has no frame left. -/
theorem Course.stack_of_answer {x : Binary64} (h : Course definitions w is w' (.ok x)) :
    w'.stack = [] := by
  generalize given : (Except.ok x : Except Failure Binary64) = answer at h
  induction h with
  | ends last =>
    subst given
    exact (moves_of_step last).stack_of_answer
  | goesOn _ _ ih => exact ih given

/-- A course leads where running the walk does. -/
theorem Course.run_eq (h : Course definitions w is w' answer) :
    w.run definitions = (w', answer) := by
  induction h with
  | ends last =>
    rw [run]
    split
    · rename_i more
      cases last.symm.trans more
    · rename_i ended
      cases last.symm.trans ended
      rfl
  | goesOn first _ ih =>
    rw [run]
    split
    · rename_i more
      cases first.symm.trans more
      exact ih
    · rename_i ended
      cases first.symm.trans ended

end

end Walk

/-! ## 7. Requests -/

/-- What is part of a list without repetitions has none. -/
theorem nodup_of_subperm {as bs : List String} (h : as.Subperm bs) (distinct : bs.Nodup) :
    as.Nodup := by
  obtain ⟨cs, perm, sublist⟩ := h
  exact perm.nodup_iff.mp (distinct.sublist sublist)

/-- What a request has done: the variables that got a frame, and the iterations of its walk. -/
structure Log where
  descended : List String
  iterations : List Walk.Iteration

namespace Log

/-- Nothing had to be done. -/
def none : Log := ⟨[], []⟩

/-- What was done first, and then. -/
def append (log log' : Log) : Log :=
  ⟨log.descended ++ log'.descended, log.iterations ++ log'.iterations⟩

/-- The variables whose expression was evaluated. -/
def evaluated (log : Log) : List String :=
  log.iterations.flatMap Walk.Iteration.evaluated

/-- **No work is done twice**: no variable gets a frame twice, no expression is evaluated twice, and none
without a frame; every iteration moves a cursor, takes a frame away or ends with a failure, and there are
no more of them than the expressions met have lexemes, and one more for each. -/
structure Unrepeated (definitions : HashMap String Variable) (log : Log) : Prop where
  descended : log.descended.Nodup
  evaluated : log.evaluated.Nodup
  framed : log.evaluated ⊆ log.descended
  moves : ∀ i ∈ log.iterations, Walk.Moves definitions i.before i.result
  length_le : log.iterations.length ≤ (log.descended.map (expressionSize definitions)).sum

theorem unrepeated_none (definitions : HashMap String Variable) : none.Unrepeated definitions :=
  ⟨List.nodup_nil, List.nodup_nil, fun _ h => h, fun _ h => absurd h List.not_mem_nil, Nat.zero_le _⟩

/-- **What is done after other work repeats nothing** if it makes frames for other variables. -/
theorem Unrepeated.append {definitions : HashMap String Variable} {log log' : Log}
    (h : log.Unrepeated definitions) (h' : log'.Unrepeated definitions)
    (apart : ∀ name ∈ log.descended, name ∉ log'.descended) :
    (log.append log').Unrepeated definitions := by
  have evaluated : (log.append log').evaluated = log.evaluated ++ log'.evaluated :=
    List.flatMap_append
  refine ⟨List.nodup_append.mpr ⟨h.descended, h'.descended, ?_⟩, ?_, ?_, fun i hi => ?_, ?_⟩
  · rintro name hn _ hn' rfl
    exact apart name hn hn'
  · rw [evaluated]
    refine List.nodup_append.mpr ⟨h.evaluated, h'.evaluated, ?_⟩
    rintro name hn _ hn' rfl
    exact apart name (h.framed hn) (h'.framed hn')
  · rw [evaluated]
    exact List.append_subset.mpr ⟨List.subset_append_of_subset_left _ h.framed,
      List.subset_append_of_subset_right _ h'.framed⟩
  · exact (List.mem_append.mp hi).elim (h.moves i) (h'.moves i)
  · have length := h.length_le
    have length' := h'.length_le
    simp only [Log.append, List.length_append, List.map_append, List.sum_append]
    omega

end Log

namespace Resolution

/-- **A request takes its course**: a name is answered at once, or a frame is made for it and the walk
from there takes its course. -/
inductive Request (r : Resolution) (name : String) :
    Log → Resolution × Except Failure Binary64 → Prop
  | atOnce (answered : ∀ root, Entry.of r.definitions r.values r.active name ≠ .ok (.descend root)) :
      Request r name .none (r.valueOf name)
  | walked {root : Frame} {is : List Walk.Iteration} {w : Walk} {answer : Except Failure Binary64}
      (entry : Entry.of r.definitions r.values r.active name = .ok (.descend root))
      (course : Walk.Course r.definitions ⟨r.values, r.active.insert name, [root]⟩ is w answer) :
      Request r name ⟨name :: is.flatMap Walk.Iteration.descended, is⟩
        (⟨r.vars, r.definitions, w.values, w.abandon⟩, answer)

/-- **The requests for a list of variables**, one after the other up to the first that fails. -/
inductive Requests : Resolution → List Variable → Log →
    Except Failure (List (String × Binary64)) → Prop
  | none {r : Resolution} : Requests r [] .none (.ok [])
  | fails {r r' : Resolution} {v : Variable} {vs : List Variable} {log : Log} {failure : Failure}
      (first : Request r v.name.text log (r', .error failure)) :
      Requests r (v :: vs) log (.error failure)
  | next {r r' : Resolution} {v : Variable} {vs : List Variable} {log log' : Log} {x : Binary64}
      {answer : Except Failure (List (String × Binary64))}
      (first : Request r v.name.text log (r', .ok x)) (others : Requests r' vs log' answer) :
      Requests r (v :: vs) (log.append log') (answer.map ((v.name.text, x) :: ·))

section

variable {vars : List Variable} {r r' : Resolution} {name : String} {log : Log}

/-- **A request ends**, with the answer that is given. -/
theorem exists_request (r : Resolution) (name : String) :
    ∃ log, Request r name log (r.valueOf name) := by
  cases entry : Entry.of r.definitions r.values r.active name with
  | error failure => exact ⟨_, .atOnce fun root h => nomatch entry.symm.trans h⟩
  | ok found =>
    cases found with
    | known x => exact ⟨_, .atOnce fun root h => nomatch entry.symm.trans h⟩
    | constant x => exact ⟨_, .atOnce fun root h => nomatch entry.symm.trans h⟩
    | descend root =>
      obtain ⟨is, course⟩ := Walk.exists_course r.definitions
        ⟨r.values, r.active.insert name, [root]⟩
      have request := Request.walked entry course
      unfold valueOf
      simp only [entry]
      exact ⟨_, request⟩

/-- The answer of a request is the one that is given. -/
theorem Request.eq_valueOf {out : Resolution × Except Failure Binary64}
    (h : Request r name log out) : out = r.valueOf name := by
  cases h with
  | atOnce => rfl
  | walked entry course =>
    unfold valueOf
    simp only [entry, course.run_eq]

/-- A request leaves the definitions alone. -/
theorem definitions_valueOf (r : Resolution) (name : String) :
    (r.valueOf name).1.definitions = r.definitions := by
  unfold valueOf
  dsimp only
  split <;> rfl

/-- **A request repeats nothing**, and puts nothing under way that has a value. -/
theorem Request.unrepeated {out : Resolution × Except Failure Binary64}
    (h : Request r name log out) :
    log.Unrepeated r.definitions ∧ ∀ other ∈ log.descended, other ∉ r.values := by
  cases h with
  | atOnce => exact ⟨Log.unrepeated_none _, fun _ h => absurd h List.not_mem_nil⟩
  | @walked root is w answer entry course =>
    obtain ⟨owner, size⟩ := Entry.descend_start entry
    obtain ⟨-, unknown, -⟩ := Entry.descend_of entry
    obtain ⟨nodup, fresh, -⟩ := course.met
    have distinct : (name :: is.flatMap Walk.Iteration.descended).Nodup :=
      List.nodup_cons.mpr ⟨fun h => fresh name h (.inr (by simp)), nodup⟩
    have frames := course.frames
    have length := course.length_le (List.cons_ne_nil _ _)
    simp only [owners, List.map_cons, List.map_nil, List.singleton_append, owner] at frames
    simp only [Walk.weight, List.foldr_cons, List.foldr_nil, Nat.add_zero, size] at length
    refine ⟨⟨distinct, nodup_of_subperm frames distinct, frames.subset, course.moves,
      by simpa using length⟩, List.forall_mem_cons.mpr ⟨unknown, fun other h known => fresh other h (.inl known)⟩⟩

/-- **What a request asks for and what it has put under way have values when it is answered**, and what
had a value before still has one. -/
theorem Request.known {x : Binary64} (h : Request r name log (r', .ok x))
    (idle : ∀ other, other ∉ r'.active) {other : String}
    (met : other = name ∨ other ∈ r.values ∨ other ∈ log.descended) : other ∈ r'.values := by
  generalize given : (r', (Except.ok x : Except Failure Binary64)) = out at h
  cases h with
  | atOnce answered =>
    cases entry : Entry.of r.definitions r.values r.active name with
    | error failure =>
      simp only [valueOf, entry] at given
      cases given
    | ok found =>
      cases Entry.found entry with
      | known kept =>
        simp only [valueOf, entry] at given
        cases given
        rcases met with rfl | before | descended
        · exact HashMap.mem_iff_isSome_getElem?.mpr (kept ▸ rfl)
        · exact before
        · cases descended
      | constant =>
        simp only [valueOf, entry] at given
        cases given
        rcases met with rfl | before | descended
        · exact HashMap.mem_insert_self
        · exact HashMap.mem_insert.mpr (.inr before)
        · cases descended
      | descend => exact absurd entry (answered _)
  | @walked root is w answer entry course =>
    cases given
    obtain ⟨-, -, stays⟩ := course.met
    have empty := course.stack_of_answer
    simp only [Walk.abandon, empty, List.foldl_nil] at idle
    refine (stays other ?_).resolve_right (idle other)
    rcases met with rfl | known | descended
    · exact .inl (.inr (by simp))
    · exact .inl (.inl known)
    · rcases List.mem_cons.mp descended with rfl | later
      · exact .inl (.inr (by simp))
      · exact .inr later

/-! ## 8. The request for all variables -/

/-- **The requests for a list of variables end**, with the answers that are given. -/
theorem exists_requests : ∀ (vs : List Variable) (r : Resolution), ∃ log answer,
    Requests r vs log answer ∧ ∀ done, r.valuesOf done vs = answer.map (done.reverse ++ ·)
  | [], r => ⟨_, _, .none, fun done => by simp [valuesOf, Except.map]⟩
  | v :: vs, r => by
      obtain ⟨log, first⟩ := exists_request r v.name.text
      rcases given : r.valueOf v.name.text with ⟨r', _ | x⟩
      · rw [given] at first
        exact ⟨_, _, .fails first, fun done => by simp [valuesOf, given, Except.map]⟩
      · rw [given] at first
        obtain ⟨log', answer, others, answers⟩ := exists_requests vs r'
        refine ⟨_, _, .next first others, fun done => ?_⟩
        rw [valuesOf, given]
        dsimp only
        rw [answers]
        cases answer <;> simp [Except.map]

/-- A request keeps a resolution consistent. -/
theorem Request.consistent {answer : Except Failure Binary64}
    (h : Request r name log (r', answer)) (consistent : Consistent vars r) : Consistent vars r' := by
  have kept := (valueOf_spec consistent name).2
  rwa [← h.eq_valueOf] at kept

/-- **What the requests for a list of variables ask for has a value behind them** if they succeed. -/
theorem known_of_valuesOf (consistent : Consistent vars r) {vs : List Variable}
    {done values : List (String × Binary64)} (h : r.valuesOf done vs = .ok values) {other : String}
    (met : other ∈ r.values ∨ other ∈ namesOf vs) : other ∈ (r.after (namesOf vs)).values := by
  induction vs generalizing r done with
  | nil => exact met.resolve_right List.not_mem_nil
  | cons v vs ih =>
    obtain ⟨log, first⟩ := exists_request r v.name.text
    rcases given : r.valueOf v.name.text with ⟨r', failure | x⟩
    · rw [valuesOf, given] at h
      cases h
    · rw [valuesOf, given] at h
      rw [given] at first
      have consistent' := first.consistent consistent
      have next : r.after (namesOf (v :: vs)) = r'.after (namesOf vs) :=
        congrArg (fun out => after out.1 (namesOf vs)) given
      rw [next]
      refine ih consistent' h ?_
      rcases met with known | asked
      · exact .inl (first.known consistent'.idle (.inr (.inl known)))
      · rcases List.mem_cons.mp asked with here | later
        · exact .inl (first.known consistent'.idle (.inl here))
        · exact .inr later

theorem Requests.unrepeated {vs : List Variable} {answer : Except Failure (List (String × Binary64))}
    (h : Requests r vs log answer) (consistent : Consistent vars r) :
    log.Unrepeated r.definitions ∧ ∀ other ∈ log.descended, other ∉ r.values := by
  induction h with
  | none => exact ⟨Log.unrepeated_none _, fun _ h => absurd h List.not_mem_nil⟩
  | fails first => exact first.unrepeated
  | @next r r' v vs log log' x answer first others ih =>
    have consistent' := first.consistent consistent
    have definitions : r'.definitions = r.definitions := by
      have := definitions_valueOf r v.name.text
      rwa [← first.eq_valueOf] at this
    obtain ⟨once, new⟩ := first.unrepeated
    obtain ⟨once', new'⟩ := ih consistent'
    rw [definitions] at once'
    have apart : ∀ other ∈ log.descended, other ∉ log'.descended := fun other h h' =>
      new' other h' (first.known consistent'.idle (.inr (.inr h)))
    refine ⟨once.append once' apart, fun other h => ?_⟩
    rcases List.mem_append.mp h with early | late
    · exact new other early
    · exact fun known => new' other late (first.known consistent'.idle (.inr (.inl known)))

end

/-- **A resolution ends and does no work twice.** Over distinct names a resolution starts, whatever they
depend on, and after any requests, whatever came of them, a further request for a name takes its course
to the answer that is given, and so does the request for all variables. In either no variable gets a
frame twice and no expression is evaluated twice; every iteration moves the cursor of the top frame, or
takes this frame away with a value for its variable, or ends the walk with a failure; and there are no
more iterations than the expressions met have lexemes, and one more for each. -/
theorem ends_without_repetition (vars : List Variable) (distinct : (namesOf vars).Nodup) :
    ∃ r, start vars = .ok r ∧ ∀ names : List String,
      (∀ name, ∃ log, Request (r.after names) name log ((r.after names).valueOf name) ∧
        log.Unrepeated (r.after names).definitions) ∧
      ∃ log, Requests (r.after names) vars log (r.after names).all ∧
        log.Unrepeated (r.after names).definitions := by
  obtain ⟨r, hs, hr⟩ := start_spec distinct
  refine ⟨r, hs, fun names => ?_⟩
  have consistent := after_consistent hr names
  refine ⟨fun name => ?_, ?_⟩
  · obtain ⟨log, request⟩ := exists_request (r.after names) name
    exact ⟨log, request, request.unrepeated.1⟩
  · obtain ⟨log, answer, requests, answers⟩ := exists_requests vars (r.after names)
    have all : (r.after names).all = answer := by
      rw [all, consistent.vars_eq, answers]
      cases answer <;> rfl
    exact ⟨log, all ▸ requests, (requests.unrepeated consistent).1⟩

/-- Two ways lead from the first name to the last. -/
def diamond : List Variable :=
  [⟨⟨"TOP", by decide⟩, .dynamic, "LEFT / RIGHT"⟩, ⟨⟨"LEFT", by decide⟩, .dynamic, "BASE"⟩,
    ⟨⟨"RIGHT", by decide⟩, .dynamic, "BASE"⟩, ⟨⟨"BASE", by decide⟩, .dynamic, "0"⟩]

/-- What two ways lead to is evaluated once, also where the request fails in the end. -/
theorem diamond_unrepeated : (namesOf diamond).Nodup ∧ ∃ r, start diamond = .ok r ∧
    (r.valueOf "TOP").2 = .error (.within "TOP" .divisionByZero) ∧
      ∃ log, Request r "TOP" log (r.valueOf "TOP") ∧ log.descended.Nodup ∧ log.evaluated.Nodup := by
  have distinct : (namesOf diamond).Nodup := by decide
  obtain ⟨r, hs, h⟩ := ends_without_repetition diamond distinct
  obtain ⟨log, request, once⟩ := (h []).1 "TOP"
  have answer : (r.valueOf "TOP").2 = naive diamond [] "TOP" :=
    (valueOf_spec (consistent_of_start hs) "TOP").1
  refine ⟨distinct, r, hs, answer.trans (by cbv), log, request, once.descended, once.evaluated⟩

end Resolution

end Reckoner
