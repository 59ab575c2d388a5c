import Reckoner.Proofs.Acceptance
import Reckoner.Proofs.Resolution.Course

/-!
# The stack of a walk is in order

A walk keeps four things that have to fit together: the frames on its stack, where the cursor of each
stands and what is bound there, the names under way, and the values found. That a name met again while
it is under way lies on a cycle, and that values may be bound by position, rests on how they fit, at the
start of every iteration (`Walk.Ordered`):

* the frames are those of distinct dynamic variables, and these are the names under way; none of them
  has a value yet;
* a frame with another above it stands right behind the reference to that one's variable, and has bound
  the values of the references before (`Frame.Suspended`); the top frame has bound the values of all
  references that it has passed (`Frame.Current`).

The link between two neighbours mentions no more of the upper frame than its variable. So a step, which
changes the top frame and may take it away or put another on it, leaves the links below as they are,
as long as values that are there stay (`Keeps`). **A step keeps the order** (`Walk.Ordered.step`), so it
holds along the course of every walk (`Walk.Course.ordered`), whatever requests came before; and between
two requests no name is under way and all values are finite (`Resolution.stack_ordered`).
-/

namespace Reckoner

open Std (HashMap HashSet)

/-! ## 1. Values that stay -/

/-- **Nothing is removed and nothing is changed**: each value found is still there. -/
def Keeps (values values' : HashMap String Binary64) : Prop :=
  ∀ (name : String) (x : Binary64), values[name]? = some x → values'[name]? = some x

section

variable {values values' : HashMap String Binary64}

theorem Keeps.refl (values : HashMap String Binary64) : Keeps values values :=
  fun _ _ => id

theorem Keeps.trans {values'' : HashMap String Binary64} (h : Keeps values values')
    (h' : Keeps values' values'') : Keeps values values'' :=
  fun name x hx => h' name x (h name x hx)

/-- A value for a name that has none changes no other. -/
theorem Keeps.insert {name : String} (unknown : name ∉ values) (x : Binary64) :
    Keeps values (values.insert name x) := by
  intro other y hy
  have ne : (name == other) = false := by
    refine beq_eq_false_iff_ne.mpr ?_
    rintro rfl
    rw [HashMap.getElem?_eq_none unknown] at hy
    cases hy
  rw [HashMap.getElem?_insert, ne]
  exact hy

end

/-! ## 2. What a frame has bound -/

namespace Frame

/-- The values bound in a frame are those of some names, one after the other. Names and values both
have the last one first. -/
def Holds (values : HashMap String Binary64) (names : List String) (f : Frame) : Prop :=
  List.Forall₂ (fun (name : String) (x : Binary64) => values[name]? = some x) names f.bound

/-- **A frame that is on top** has bound the values of all references before its cursor. -/
def Current (values : HashMap String Binary64) (f : Frame) : Prop :=
  f.Holds values (Lexeme.references f.seen)

/-- **A frame that waits for a variable** stands right behind a reference to it, and has bound the
values of all references before that one. -/
def Suspended (values : HashMap String Binary64) (child : String) (f : Frame) : Prop :=
  ∃ before, f.seen = .symbol (.reference child) :: before ∧
    f.Holds values (Lexeme.references before)

section

variable {values values' : HashMap String Binary64} {f f' : Frame} {name : String}

theorem Holds.mono (kept : Keeps values values') {names : List String} (h : f.Holds values names) :
    f.Holds values' names :=
  h.imp fun name x hx => kept name x hx

theorem Suspended.mono (kept : Keeps values values') (h : f.Suspended values name) :
    f.Suspended values' name := by
  obtain ⟨before, behind, holds⟩ := h
  exact ⟨before, behind, holds.mono kept⟩

/-- Nothing is before the cursor of a frame that starts, and nothing is bound. -/
theorem current_start (values : HashMap String Binary64) (owner : String) (lexemes : List Lexeme) :
    (start owner lexemes).Current values :=
  .nil

/-- The cursor passes no reference before the one it stops behind. -/
theorem seek_passes : ∀ {rest seen seen' rest' : List Lexeme},
    seek seen rest = (some name, seen', rest') →
      ∃ before, seen' = .symbol (.reference name) :: before ∧
        Lexeme.references before = Lexeme.references seen
  | [], _, _, _, h => by simp [seek] at h
  | l :: rest, seen, seen', rest', h => by
      cases l with
      | token t =>
        have further : seek (.token t :: seen) rest = (some name, seen', rest') := h
        obtain ⟨before, behind, same⟩ := seek_passes further
        exact ⟨before, behind, same⟩
      | symbol s =>
        cases s with
        | placeholder other =>
          have further : seek (.symbol (.placeholder other) :: seen) rest =
            (some name, seen', rest') := h
          obtain ⟨before, behind, same⟩ := seek_passes further
          exact ⟨before, behind, same⟩
        | reference other =>
          cases h
          exact ⟨seen, rfl, rfl⟩

/-- **A frame whose cursor has found a reference waits for it.** -/
theorem Current.advance (h : f.Current values) (cursor : f.advance = (some name, f')) :
    f'.Suspended values name := by
  obtain ⟨owner, seen, rest, bound⟩ := f
  rcases found : seek seen rest with ⟨reference, seen', rest'⟩
  simp only [Frame.advance, found] at cursor
  cases cursor
  obtain ⟨before, behind, same⟩ := seek_passes found
  refine ⟨before, behind, ?_⟩
  unfold Holds
  rw [same]
  exact h

/-- **A frame that gets the value it waits for goes on.** -/
theorem Suspended.push (h : f.Suspended values name) {x : Binary64} (known : values[name]? = some x) :
    (f.push x).Current values := by
  obtain ⟨before, behind, holds⟩ := h
  have seen : (f.push x).seen = .symbol (.reference name) :: before := behind
  unfold Current
  rw [seen, Lexeme.references_reference]
  exact .cons known holds

end

end Frame

/-! ## 3. Frames one above the other -/

/-- **Each frame below another waits for its variable.** -/
def Linked (values : HashMap String Binary64) (stack : List Frame) : Prop :=
  stack.IsChain fun above frame => frame.Suspended values above.owner

section

variable {values values' : HashMap String Binary64} {f g : Frame} {below : List Frame}

/-- The links of a stack do not depend on its top frame, but for the variable, and stay as long as
values do. -/
theorem Linked.replace (h : Linked values (f :: below)) (same : g.owner = f.owner)
    (kept : Keeps values values') : Linked values' (g :: below) := by
  unfold Linked at h ⊢
  rw [List.isChain_cons] at h ⊢
  refine ⟨fun frame next => ?_, h.2.imp fun _ _ => Frame.Suspended.mono kept⟩
  rw [same]
  exact (h.1 frame next).mono kept

theorem Linked.push (h : Linked values (f :: below)) (waits : f.Suspended values g.owner) :
    Linked values (g :: f :: below) :=
  List.isChain_cons_cons.mpr ⟨waits, h⟩

end

namespace Walk

/-- **What holds of a walk at the start of every iteration.** -/
structure Ordered (vars : List Variable) (w : Walk) : Prop where
  reads : ∀ f ∈ w.stack, f.Reads vars
  distinct : (owners w.stack).Nodup
  active : ∀ name, name ∈ w.active ↔ name ∈ owners w.stack
  unfinished : ∀ name ∈ w.active, name ∉ w.values
  current : ∀ top ∈ w.stack.head?, top.Current w.values
  linked : Linked w.values w.stack

section

variable {vars : List Variable} {definitions : HashMap String Variable}
  {values values' : HashMap String Binary64} {active : HashSet String}
  {top frame child : Frame} {below : List Frame} {name : String} {x : Binary64}

/-- A frame with its cursor moved or a value bound is one of the same variable. -/
theorem Ordered.owners_eq (same : frame.owner = top.owner) :
    owners (frame :: below) = owners (top :: below) :=
  congrArg (· :: owners below) same

/-! ## 4. A step keeps the order -/

/-- **The top frame gets the value of a reference**, which is kept, or is found at once and kept from
now on. -/
theorem Ordered.binds (h : Ordered vars ⟨values, active, top :: below⟩)
    (cursor : top.advance = (some name, frame)) (kept : Keeps values values')
    (known : values'[name]? = some x) (unfinished : ∀ other ∈ active, other ∉ values') :
    Ordered vars ⟨values', active, frame.push x :: below⟩ := by
  obtain ⟨owner, -, lexemes, -⟩ := Frame.advance_some cursor
  have waits := ((h.current top rfl).advance cursor).mono kept
  have same : owners (frame.push x :: below) = owners (top :: below) := owners_eq owner
  refine ⟨?_, same ▸ h.distinct, same ▸ h.active, unfinished, ?_, h.linked.replace owner kept⟩
  · obtain ⟨reads, others⟩ := List.forall_mem_cons.mp h.reads
    exact List.forall_mem_cons.mpr ⟨reads.congr owner lexemes, others⟩
  · rintro _ ⟨⟩
    exact waits.push known

/-- **A frame is put on the one that refers to its variable.** -/
theorem Ordered.descends (h : Ordered vars ⟨values, active, top :: below⟩)
    (cursor : top.advance = (some name, frame)) (reads : child.Reads vars) (owner : child.owner = name)
    (current : child.Current values) (idle : name ∉ active) (unknown : name ∉ values) :
    Ordered vars ⟨values, active.insert name, child :: frame :: below⟩ := by
  obtain ⟨owner', -, lexemes, -⟩ := Frame.advance_some cursor
  have same : owners (frame :: below) = owners (top :: below) := owners_eq owner'
  have new : owners (child :: frame :: below) = name :: owners (top :: below) := by
    rw [← same, ← owner]
    rfl
  subst owner
  refine ⟨?_, ?_, fun other => ?_, ?_, ?_, ?_⟩
  · obtain ⟨reads', others⟩ := List.forall_mem_cons.mp h.reads
    exact List.forall_mem_cons.mpr ⟨reads, List.forall_mem_cons.mpr ⟨reads'.congr owner' lexemes, others⟩⟩
  · rw [new]
    exact List.nodup_cons.mpr ⟨fun under => idle ((h.active _).mpr under), h.distinct⟩
  · rw [new, List.mem_cons, ← h.active, HashSet.mem_insert, beq_iff_eq, eq_comm]
  · intro other under
    rcases HashSet.mem_insert.mp under with same | under
    · rwa [← beq_iff_eq.mp same]
    · exact h.unfinished other under
  · rintro _ ⟨⟩
    exact current
  · exact (h.linked.replace owner' (.refl values)).push ((h.current top rfl).advance cursor)

/-- **The top frame is taken away**: its variable has its value, which the frame below waited for. -/
theorem Ordered.hands {parent : Frame} (h : Ordered vars ⟨values, active, top :: parent :: below⟩)
    (x : Binary64) :
    Ordered vars ⟨values.insert top.owner x, active.erase top.owner, parent.push x :: below⟩ := by
  obtain ⟨fresh, distinct⟩ := List.nodup_cons.mp h.distinct
  have kept := Keeps.insert (h.unfinished top.owner ((h.active _).mpr List.mem_cons_self)) x
  obtain ⟨waits, linked⟩ := List.isChain_cons_cons.mp h.linked
  have known : (values.insert top.owner x)[top.owner]? = some x := HashMap.getElem?_insert_self
  refine ⟨?_, distinct, erase_active h.active fresh, fun other under known => ?_, ?_,
    Linked.replace linked rfl kept⟩
  · obtain ⟨-, reads, others⟩ := (List.forall_mem_cons.mp h.reads).imp_right List.forall_mem_cons.mp
    exact List.forall_mem_cons.mpr ⟨reads, others⟩
  · obtain ⟨ne, under⟩ := HashSet.mem_erase.mp under
    rcases HashMap.mem_insert.mp known with same | known
    · cases ne.symm.trans same
    · exact h.unfinished other under known
  · rintro _ ⟨⟩
    exact (Frame.Suspended.mono kept waits).push known

/-- What a step may come to: a walk in order, or an end, with all values kept. -/
def Continues (vars : List Variable) (w : Walk) : Progress → Prop
  | .more next => Ordered vars next ∧ Keeps w.values next.values
  | .ended w' _ => Keeps w.values w'.values

/-- **A step keeps the order**, and the values. -/
theorem Ordered.step (hd : ∀ name, definitions[name]? = definition? vars name) {w : Walk}
    (h : Ordered vars w) : Continues vars w (w.step definitions) := by
  obtain ⟨values, active, stack⟩ := w
  cases stack with
  | nil => exact .refl values
  | cons top below =>
    rcases cursor : top.advance with ⟨_ | name, frame⟩
    · have owner := (Frame.advance_none cursor).1
      have unknown := h.unfinished top.owner ((h.active _).mpr List.mem_cons_self)
      cases evaluated : frame.evaluate with
      | error fault =>
        simp only [Walk.step, cursor, evaluated]
        exact .refl values
      | ok x =>
        cases below with
        | nil =>
          simp only [Walk.step, cursor, evaluated, owner]
          exact .insert unknown x
        | cons parent below =>
          simp only [Walk.step, cursor, evaluated, owner]
          exact ⟨h.hands x, .insert unknown x⟩
    · cases entry : Entry.of definitions values active name with
      | error failure =>
        simp only [Walk.step, cursor, entry]
        exact .refl values
      | ok found =>
        cases Entry.found entry with
        | known kept =>
          simp only [Walk.step, cursor, entry]
          exact ⟨h.binds cursor (.refl values) kept h.unfinished, .refl values⟩
        | @constant v x unknown idle =>
          simp only [Walk.step, cursor, entry]
          refine ⟨h.binds cursor (.insert unknown x) HashMap.getElem?_insert_self ?_,
            .insert unknown x⟩
          intro other under known
          rcases HashMap.mem_insert.mp known with same | known
          · exact idle (beq_iff_eq.mp same ▸ under)
          · exact h.unfinished other under known
        | @descend v lexemes unknown idle defined kind read =>
          simp only [Walk.step, cursor, entry]
          have reads : (Frame.start name lexemes).Reads vars :=
            ⟨v, (hd name).symm.trans defined, kind, read⟩
          exact ⟨h.descends cursor reads rfl (Frame.current_start values name lexemes) idle unknown,
            .refl values⟩

/-! ## 5. The course of a walk -/

/-- **The course of a walk in order is in order**, and the values that were there are kept up to its
end, whatever it comes to. -/
theorem Course.ordered (hd : ∀ name, definitions[name]? = definition? vars name) {w w' : Walk}
    {is : List Iteration} {answer : Except Failure Binary64} (h : Course definitions w is w' answer)
    (start : Ordered vars w) :
    (∀ i ∈ is, Ordered vars i.before) ∧ Keeps w.values w'.values := by
  induction h with
  | ends last =>
    have kept := start.step hd
    rw [last] at kept
    exact ⟨List.forall_mem_singleton.mpr start, kept⟩
  | goesOn first _ ih =>
    have next := start.step hd
    rw [first] at next
    obtain ⟨others, kept⟩ := ih next.1
    exact ⟨List.forall_mem_cons.mpr ⟨start, others⟩, next.2.trans kept⟩

/-- A walk starts in order, with one frame. -/
theorem ordered_root (idle : ∀ other, other ∉ active) {root : Frame} (reads : root.Reads vars)
    (owner : root.owner = name) (current : root.Current values) (unknown : name ∉ values) :
    Ordered vars ⟨values, active.insert name, [root]⟩ := by
  subst owner
  refine ⟨List.forall_mem_singleton.mpr reads, List.nodup_singleton _, fun other => ?_, ?_, ?_,
    .singleton root⟩
  · show other ∈ active.insert root.owner ↔ other ∈ [root.owner]
    rw [HashSet.mem_insert, beq_iff_eq, List.mem_singleton, eq_comm]
    exact or_iff_left (idle other)
  · intro other under
    rcases HashSet.mem_insert.mp under with same | under
    · rwa [← beq_iff_eq.mp same]
    · exact absurd under (idle other)
  · rintro _ ⟨⟩
    exact current

end

end Walk

/-! ## 6. Requests -/

namespace Resolution

/-- **What holds of a resolution between two requests**: no name is under way, and every value found is
finite. -/
structure Rests (r : Resolution) : Prop where
  idle : ∀ name, name ∉ r.active
  finite : ∀ (name : String) (x : Binary64), r.values[name]? = some x → x.isFinite = true

section

variable {vars : List Variable} {r : Resolution} {name : String} {log : Log}

theorem Consistent.rests (h : Consistent vars r) : r.Rests :=
  ⟨h.idle, fun name x hx => (h.sound name x hx).isFinite⟩

/-- **Every iteration for a request starts in order**, and the request keeps the values there are,
whatever it is answered. -/
theorem Request.ordered (consistent : Consistent vars r) {out : Resolution × Except Failure Binary64}
    (h : Request r name log out) :
    (∀ i ∈ log.iterations, Walk.Ordered vars i.before) ∧ Keeps r.values out.1.values := by
  cases h with
  | atOnce answered =>
    refine ⟨fun _ h => absurd h List.not_mem_nil, ?_⟩
    cases entry : Entry.of r.definitions r.values r.active name with
    | error failure =>
      simp only [valueOf, entry]
      exact .refl r.values
    | ok found =>
      cases Entry.found entry with
      | known =>
        simp only [valueOf, entry]
        exact .refl r.values
      | @constant v x unknown =>
        simp only [valueOf, entry]
        exact .insert unknown x
      | descend => exact absurd entry (answered _)
  | walked entry course =>
    cases Entry.found entry with
    | @descend v lexemes unknown idle defined kind read =>
      have reads : (Frame.start name lexemes).Reads vars :=
        ⟨v, (consistent.definitions name).symm.trans defined, kind, read⟩
      exact course.ordered consistent.definitions (Walk.ordered_root consistent.idle reads rfl
        (Frame.current_start r.values name lexemes) unknown)

theorem Requests.ordered {vs : List Variable} {answer : Except Failure (List (String × Binary64))}
    (h : Requests r vs log answer) (consistent : Consistent vars r) :
    ∀ i ∈ log.iterations, Walk.Ordered vars i.before := by
  induction h with
  | none => exact fun _ h => absurd h List.not_mem_nil
  | fails first => exact (first.ordered consistent).1
  | next first _ ih =>
    exact List.forall_mem_append.mpr
      ⟨(first.ordered consistent).1, ih (first.consistent consistent)⟩

end

/-- **The stack of every walk is in order.** After any requests, whatever came of them, no name is under
way and every value found is finite. Each iteration of the walk for a further request starts in order,
and when the request is answered, with a value or with a failure, no value found before has been removed
or changed, no name is under way, and every value is finite. The iterations of the request for all
variables start in order as well. -/
theorem stack_ordered {vars : List Variable} {r : Resolution} (starts : start vars = .ok r)
    (names : List String) :
    (r.after names).Rests ∧
    (∀ name, (∃ log, Request (r.after names) name log ((r.after names).valueOf name) ∧
        ∀ i ∈ log.iterations, Walk.Ordered vars i.before) ∧
      Keeps (r.after names).values ((r.after names).valueOf name).1.values ∧
      ((r.after names).valueOf name).1.Rests) ∧
    ∃ log, Requests (r.after names) vars log (r.after names).all ∧
      ∀ i ∈ log.iterations, Walk.Ordered vars i.before := by
  have consistent := after_consistent (consistent_of_start starts) names
  refine ⟨consistent.rests, fun name => ?_, ?_⟩
  · obtain ⟨log, request⟩ := exists_request (r.after names) name
    obtain ⟨ordered, kept⟩ := request.ordered consistent
    exact ⟨⟨log, request, ordered⟩, kept, (valueOf_spec consistent name).2.rests⟩
  · obtain ⟨log, answer, requests, answers⟩ := exists_requests vars (r.after names)
    have all : (r.after names).all = answer := by
      rw [all, consistent.vars_eq, answers]
      cases answer <;> rfl
    exact ⟨log, all ▸ requests, requests.ordered consistent⟩

/-- A variable that waits twice for another, which has no value. -/
def stakes : List Variable :=
  [⟨⟨"RETURNS", by decide⟩, .dynamic, "STAKE + STAKE * SPLIT"⟩,
    ⟨⟨"SPLIT", by decide⟩, .dynamic, "STAKE / STAKE"⟩, ⟨⟨"STAKE", by decide⟩, .constant, "0"⟩]

/-- A walk that fails with two frames on its stack was in order and leaves no name under way, also
behind a request that failed in the same place. -/
theorem stakes_ordered : ∃ r, start stakes = .ok r ∧
    ((r.after ["SPLIT"]).valueOf "RETURNS").2 = .error (.within "SPLIT" .divisionByZero) ∧
    (∃ log, Request (r.after ["SPLIT"]) "RETURNS" log ((r.after ["SPLIT"]).valueOf "RETURNS") ∧
      ∀ i ∈ log.iterations, Walk.Ordered stakes i.before) ∧
    ((r.after ["SPLIT"]).valueOf "RETURNS").1.Rests := by
  have distinct : (namesOf stakes).Nodup := by decide
  obtain ⟨r, starts, consistent⟩ := start_spec distinct
  obtain ⟨-, requests, -⟩ := stack_ordered starts ["SPLIT"]
  obtain ⟨ordered, -, rests⟩ := requests "RETURNS"
  have answer : ((r.after ["SPLIT"]).valueOf "RETURNS").2 = naive stakes [] "RETURNS" :=
    (valueOf_spec (after_consistent consistent ["SPLIT"]) "RETURNS").1
  exact ⟨r, starts, answer.trans (by cbv), ordered, rests⟩

end Resolution

end Reckoner
