import Reckoner.Variable
import Reckoner.Postfix
import Std.Data.HashMap
import Std.Data.HashSet

/-!
# Resolving variables

The value of a dynamic variable is the value of its expression when every variable it refers to has
been replaced by its own value. `Resolution` keeps the definitions and the values found so far, so
that no variable is worked out twice.

References are followed depth first, from left to right. The variables under way form a stack of
`Frame`s, and a variable that is met again while it is under way depends on itself. The walk holds
its own stack, so a chain of references may have any length; it ends because each step either puts
another variable under way, or moves the cursor of the top frame, or takes that frame away.

A fault is laid to the variable whose expression it was met in. Only a fault of the name that was
asked for itself is laid to none.
-/

namespace Reckoner

open Std (HashMap HashSet)

/-! ## 1. Frames -/

/-- A dynamic variable under way: the lexemes before the cursor (the last one first), those behind it,
and the values of the references before the cursor (the last one first). -/
structure Frame where
  owner : String
  seen : List Lexeme
  rest : List Lexeme
  bound : List Binary64

namespace Frame

/-- A variable of whose expression nothing has been looked at. -/
def start (owner : String) (lexemes : List Lexeme) : Frame :=
  { owner, seen := [], rest := lexemes, bound := [] }

/-- All lexemes of the expression. -/
def lexemes (f : Frame) : List Lexeme :=
  f.seen.reverse ++ f.rest

/-- Looks for the next reference; the lexemes up to it, or all if there is none, go over to `seen`. -/
def seek (seen : List Lexeme) : List Lexeme → Option String × List Lexeme × List Lexeme
  | [] => (none, seen, [])
  | l :: rest =>
    match l.reference? with
    | some name => (some name, l :: seen, rest)
    | none => seek (l :: seen) rest

/-- Moves the cursor behind the next reference, or to the end if there is none. -/
def advance (f : Frame) : Option String × Frame :=
  let (reference, seen, rest) := seek f.seen f.rest
  (reference, { f with seen, rest })

/-- Binds the reference before the cursor. -/
def push (f : Frame) (x : Binary64) : Frame :=
  { f with bound := x :: f.bound }

/-- A symbol takes the next of the values that are left. -/
def takeNext (s : Symbol) : StateT (List Binary64) (Except Fault) Binary64
  | [] => .error (.malformed (.unexpectedSymbol s.text))
  | x :: xs => .ok (x, xs)

/-- The tokens of the expression: its symbols take the values bound, one after the other. -/
def tokens (f : Frame) : Except Fault (List Token) :=
  (Lexeme.bind takeNext f.lexemes).run' f.bound.reverse

/-- The value of the expression, once every reference is bound. -/
def evaluate (f : Frame) : Except Fault Binary64 := do
  Token.evaluate (← f.tokens)

/-- A reference found lies behind the old cursor. -/
theorem seek_length_lt {seen rest seen' rest' : List Lexeme} {name : String}
    (h : seek seen rest = (some name, seen', rest')) : rest'.length < rest.length := by
  induction rest generalizing seen with
  | nil => simp [seek] at h
  | cons l rest ih =>
    simp only [seek] at h
    split at h
    · cases h
      simp
    · exact Nat.lt_succ_of_lt (ih h)

end Frame

/-- What a name turns out to be. -/
inductive Entry
  /-- A variable whose value is known. -/
  | known (x : Binary64)
  /-- A constant whose value is not recorded yet. -/
  | constant (x : Binary64)
  /-- A dynamic variable that has to be walked. -/
  | descend (frame : Frame)

/-- Looks a name up, while the variables `active` are under way. -/
def Entry.of (definitions : HashMap String Variable) (values : HashMap String Binary64)
    (active : HashSet String) (name : String) : Except Failure Entry :=
  match values[name]? with
  | some x => .ok (.known x)
  | none =>
    match definitions[name]? with
    | none => .error (.plain (.undefinedVariable name))
    | some v =>
      if active.contains name then
        .error (.plain (.circularDependency name))
      else
        match v.kind with
        | .constant =>
          match Number.ofConstant? v.text with
          | some x => .ok (.constant x)
          | none => .error (.plain (.nonNumericConstant name))
        | .dynamic =>
          match Lexeme.ofText .dynamic v.text with
          | .ok lexemes => .ok (.descend (.start name lexemes))
          | .error fault => .error (.within name fault)

/-- Only a variable that is neither known nor under way is walked. -/
theorem Entry.descend_of {definitions : HashMap String Variable} {values : HashMap String Binary64}
    {active : HashSet String} {name : String} {child : Frame}
    (h : Entry.of definitions values active name = .ok (.descend child)) :
    name ∈ definitions ∧ name ∉ values ∧ name ∉ active := by
  unfold Entry.of at h
  split at h
  · simp at h
  · rename_i unknown
    split at h
    · simp at h
    · rename_i v defined
      split at h
      · simp at h
      · rename_i idle
        refine ⟨?_, ?_, by simpa using idle⟩
        · exact HashMap.isSome_getElem?_iff_mem.mp (by simp [defined])
        · intro known
          have := HashMap.isSome_getElem?_iff_mem.mpr known
          simp [unknown] at this

/-! ## 2. The walk -/

/-- The state of a walk: the values found so far, the names under way, and their frames, that of the
variable met last on top. -/
structure Walk where
  values : HashMap String Binary64
  active : HashSet String
  stack : List Frame

/-- What a step of the walk comes to. At an end with a failure the stack keeps its frames. -/
inductive Progress
  | more (w : Walk)
  | ended (w : Walk) (result : Except Failure Binary64)

namespace Walk

/-- One step: the next reference of the top frame is looked up, or the top frame is evaluated and its
value handed to the frame below. -/
def step (definitions : HashMap String Variable) : Walk → Progress
  | ⟨values, active, []⟩ => .ended ⟨values, active, []⟩ (.error (.plain (.malformed .nothingLeft)))
  | ⟨values, active, frame :: below⟩ =>
    match frame.advance with
    | (some name, frame) =>
      match Entry.of definitions values active name with
      | .ok (.known x) => .more ⟨values, active, frame.push x :: below⟩
      | .ok (.constant x) => .more ⟨values.insert name x, active, frame.push x :: below⟩
      | .ok (.descend child) => .more ⟨values, active.insert name, child :: frame :: below⟩
      | .error failure => .ended ⟨values, active, frame :: below⟩ (.error (failure.blame frame.owner))
    | (none, frame) =>
      match frame.evaluate with
      | .error fault => .ended ⟨values, active, frame :: below⟩ (.error (.within frame.owner fault))
      | .ok x =>
        let values := values.insert frame.owner x
        let active := active.erase frame.owner
        match below with
        | [] => .ended ⟨values, active, []⟩ (.ok x)
        | parent :: below => .more ⟨values, active, parent.push x :: below⟩

/-- The names under way once the frames left on the stack are given up. -/
def abandon (w : Walk) : HashSet String :=
  w.stack.foldl (fun active frame => active.erase frame.owner) w.active

/-- How many variables are neither known nor under way. -/
def fresh (definitions : HashMap String Variable) (w : Walk) : Nat :=
  (definitions.keys.filter fun name =>
    !w.values.contains name && !w.active.contains name).length

/-- How many lexemes the frames still hold, each frame counting for one more. -/
def weight (w : Walk) : Nat :=
  w.stack.foldr (fun frame total => frame.rest.length + 1 + total) 0

theorem filter_length_le {α : Type} {p q : α → Bool} (l : List α) (h : ∀ a, q a → p a) :
    (l.filter q).length ≤ (l.filter p).length := by
  rw [← List.countP_eq_length_filter, ← List.countP_eq_length_filter]
  exact List.countP_mono_left fun a _ => h a

theorem filter_length_lt {α : Type} {p q : α → Bool} {l : List α} (h : ∀ a, q a → p a)
    {a : α} (mem : a ∈ l) (old : p a = true) (new : q a = false) :
    (l.filter q).length < (l.filter p).length := by
  induction l with
  | nil => simp at mem
  | cons b l ih =>
    have le := filter_length_le l h
    rcases List.mem_cons.mp mem with rfl | mem
    · simp [old, new]; omega
    · have := ih mem
      by_cases hq : q b
      · simp [hq, h b hq]; omega
      · by_cases hp : p b <;> simp [hq, hp] <;> omega

/-- What becomes known or gets under way is fresh no longer. -/
theorem fresh_le {definitions : HashMap String Variable} {w w' : Walk}
    (h : ∀ name, (name ∈ w.values ∨ name ∈ w.active) → name ∈ w'.values ∨ name ∈ w'.active) :
    w'.fresh definitions ≤ w.fresh definitions := by
  refine filter_length_le _ fun name old => ?_
  simp only [Bool.and_eq_true, Bool.not_eq_true', ← Bool.not_eq_true, HashMap.contains_iff_mem,
    HashSet.contains_iff_mem] at old ⊢
  exact ⟨fun known => (h name (.inl known)).elim old.1 old.2,
    fun busy => (h name (.inr busy)).elim old.1 old.2⟩

/-- A step leaves fewer fresh variables, or as many and less weight. -/
theorem step_decreases {definitions : HashMap String Variable} {w w' : Walk}
    (h : w.step definitions = .more w') :
    Prod.Lex (· < ·) (· < ·) (w'.fresh definitions, w'.weight) (w.fresh definitions, w.weight) := by
  obtain ⟨values, active, _ | ⟨⟨owner, seen, rest, bound⟩, below⟩⟩ := w
  · simp [step] at h
  · simp only [step, Frame.advance] at h
    split at h
    · rename_i name frame found
      simp only [Prod.mk.injEq] at found
      obtain ⟨found, rfl⟩ := found
      have shorter := Frame.seek_length_lt (Prod.ext found rfl)
      split at h
      · cases h
        exact Prod.Lex.right' _ (fresh_le fun _ => id) (by simp [weight, Frame.push, shorter])
      · cases h
        refine Prod.Lex.right' _ (fresh_le fun other => ?_) (by simp [weight, Frame.push, shorter])
        rintro (known | busy)
        · exact .inl (HashMap.mem_insert.mpr (.inr known))
        · exact .inr busy
      · rename_i child entry
        cases h
        obtain ⟨defined, unknown, idle⟩ := Entry.descend_of entry
        refine Prod.Lex.left _ _ (filter_length_lt (fun other => ?_)
          (HashMap.mem_keys.mpr defined) ?_ ?_)
        · simp only [Bool.and_eq_true, Bool.not_eq_true', ← Bool.not_eq_true,
            HashMap.contains_iff_mem, HashSet.contains_iff_mem, HashSet.mem_insert]
          exact fun ⟨unknown, idle⟩ => ⟨unknown, fun busy => idle (.inr busy)⟩
        · simp [unknown, idle]
        · simp
      · cases h
    · rename_i frame found
      simp only [Prod.mk.injEq] at found
      obtain ⟨-, rfl⟩ := found
      split at h
      · cases h
      · rename_i x _
        split at h
        · cases h
        · rename_i parent below
          cases h
          refine Prod.Lex.right' _ (fresh_le fun other => ?_) (by simp [weight, Frame.push])
          rintro (known | busy)
          · exact .inl (HashMap.mem_insert.mpr (.inr known))
          · by_cases same : owner = other
            · exact .inl (HashMap.mem_insert.mpr (.inl (by simp [same])))
            · exact .inr (HashSet.mem_erase.mpr ⟨by simpa using same, busy⟩)

/-- The walk up to its end. -/
def run (definitions : HashMap String Variable) (w : Walk) : Walk × Except Failure Binary64 :=
  match _h : w.step definitions with
  | .more w => w.run definitions
  | .ended w result => (w, result)
termination_by (w.fresh definitions, w.weight)
decreasing_by exact step_decreases _h

end Walk

/-! ## 3. Resolutions -/

/-- The variables to resolve, in their order and by name, the values found so far, and the names of
the variables under way. -/
structure Resolution where
  vars : List Variable
  definitions : HashMap String Variable
  values : HashMap String Binary64
  active : HashSet String

namespace Resolution

/-- The definitions by name, behind those of `definitions`; a name that is there already is a
fault. -/
def index (definitions : HashMap String Variable) :
    List Variable → Except Fault (HashMap String Variable)
  | [] => .ok definitions
  | v :: vs =>
    if definitions.contains v.name.text then .error (.duplicateVariable v.name.text)
    else index (definitions.insert v.name.text v) vs

/-- Variables with no value found yet. -/
def start (vars : List Variable) : Except Failure Resolution :=
  match index ∅ vars with
  | .ok definitions => .ok { vars, definitions, values := ∅, active := ∅ }
  | .error fault => .error (.plain fault)

/-- Finds the value of a name, keeping what is found on the way, whether it succeeds or not. -/
def valueOf : Resolution → String → Resolution × Except Failure Binary64
  | ⟨vars, definitions, values, active⟩, name =>
    match Entry.of definitions values active name with
    | .ok (.known x) => (⟨vars, definitions, values, active⟩, .ok x)
    | .ok (.constant x) => (⟨vars, definitions, values.insert name x, active⟩, .ok x)
    | .ok (.descend root) =>
      let (w, result) := Walk.run definitions ⟨values, active.insert name, [root]⟩
      (⟨vars, definitions, w.values, w.abandon⟩, result)
    | .error failure => (⟨vars, definitions, values, active⟩, .error failure)

/-- The values of a list of variables in order, behind the values `done` (the last one first). -/
def valuesOf (r : Resolution) (done : List (String × Binary64)) :
    List Variable → Except Failure (List (String × Binary64))
  | [] => .ok done.reverse
  | v :: vs =>
    match r.valueOf v.name.text with
    | (r, .ok x) => valuesOf r ((v.name.text, x) :: done) vs
    | (_, .error failure) => .error failure

/-- The names of all variables with their values, in the order of definition. -/
def all (r : Resolution) : Except Failure (List (String × Binary64)) :=
  r.valuesOf [] r.vars

end Resolution

/-- The names of all variables with their values, in the order of definition. -/
def resolve (vars : List Variable) : Except Failure (List (String × Binary64)) := do
  (← Resolution.start vars).all

/-- The variables that the expression of a dynamic variable refers to, in the order of code points,
each once. -/
def dependencies (expression : String) : Except Fault (List String) := do
  return Text.sortedDistinct (Lexeme.references (← Lexeme.ofText .dynamic expression))

end Reckoner
