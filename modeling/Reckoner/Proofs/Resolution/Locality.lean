import Mathlib
import Reckoner.Proofs.Resolution.Solution
import Reckoner.Proofs.Book.Changes

/-!
# Resolving is local

What a name comes to is decided by the definitions that can be reached from it. Here two lists of
variables are compared that need have nothing else in common: neither their order, nor what else they
define, nor whether that can be read, has a value or goes round in a circle.

* `AgreeFrom`: both lists define each name that the first one reaches from a name alike, or not at all.
* `AgreeFrom.naive_eq`: then the recursive reading finds the same value or the same failure in both,
  along every path.
* **`Resolution.answers_local`**: so does a resolution, after any requests to either; and a variable
  of a book that is updated changes the values of those that lead to it, and of no others.

The first is shown for any set of names that references do not leave (`AgreeFrom.of_closed`), and what
can be reached is the least such set.
-/

namespace Reckoner

open Relation (ReflTransGen)

/-- **Two lists of variables agree on what can be reached from a name**: each such name has the same
definition in both, or none. -/
def AgreeFrom (vars vars' : List Variable) (name : String) : Prop :=
  ∀ other, ReflTransGen (RefersTo vars) name other → definition? vars other = definition? vars' other

/-! ## 1. Two lists -/

section

variable {vars vars' : List Variable} {name : String}

/-- It is enough to agree on names that references do not leave. -/
theorem AgreeFrom.of_closed {S : String → Prop} (start : S name)
    (closed : ∀ a b, S a → RefersTo vars a b → S b)
    (same : ∀ a, S a → definition? vars a = definition? vars' a) : AgreeFrom vars vars' name := by
  intro other reached
  refine same other ?_
  induction reached with
  | refl => exact start
  | tail _ step inside => exact closed _ _ inside step

/-- The name itself is among what can be reached from it. -/
theorem AgreeFrom.here (h : AgreeFrom vars vars' name) :
    definition? vars' name = definition? vars name :=
  (h name .refl).symm

/-- What is reached from a reference is reached from the name. -/
theorem AgreeFrom.step {other : String} (h : AgreeFrom vars vars' name)
    (refers : RefersTo vars name other) : AgreeFrom vars vars' other :=
  fun _ reached => h _ (.head refers reached)

/-- An expression asks for the values of the names it refers to, and no others. -/
theorem expressionValue_congr {owner : String} {value value' : String → Except Failure Binary64}
    {lexemes : List Lexeme} (hp : ∀ other, Lexeme.symbol (.placeholder other) ∉ lexemes)
    (same : ∀ other ∈ Lexeme.references lexemes, value other = value' other) :
    expressionValue owner value lexemes = expressionValue owner value' lexemes := by
  unfold expressionValue
  congr 1
  refine Lexeme.bind_congr fun s hs => ?_
  obtain ⟨other, hm, rfl⟩ := reference_eq hp hs
  simp only [Lexeme.referenceValue, same other hm]

/-- **Where two lists agree on what can be reached from a name, it comes to the same in both**, along
every path: the same value, or the same failure. -/
theorem AgreeFrom.naive_eq {path : List String} (h : AgreeFrom vars vars' name) :
    naive vars path name = naive vars' path name := by
  fun_induction naive vars path name with
  | case1 path name missing => rw [naive_undefined (h.here.trans missing)]
  | case2 path name v found onPath => rw [naive_circular (h.here.trans found) onPath]
  | case3 path name v found fresh kind x read =>
    rw [naive_defined (h.here.trans found) fresh, kind]
    simp only [read]
  | case4 path name v found fresh kind read =>
    rw [naive_defined (h.here.trans found) fresh, kind]
    simp only [read]
  | case5 path name v found fresh kind lexemes read ih =>
    rw [naive_dynamic (h.here.trans found) fresh kind read]
    refine expressionValue_congr (Lexeme.no_placeholder read) fun other hm => ?_
    exact ih other (h.step ⟨v, lexemes, found, kind, read, hm⟩)
  | case6 path name v found fresh kind fault read =>
    rw [naive_defined (h.here.trans found) fresh, kind]
    simp only [read]

/-- Lists that differ in the definition of one name agree from every name that does not lead there. -/
theorem agreeFrom_of_apart {key : String}
    (same : ∀ other ≠ key, definition? vars other = definition? vars' other)
    (apart : ¬ ReflTransGen (RefersTo vars) name key) : AgreeFrom vars vars' name := by
  refine .of_closed (S := fun other => ¬ ReflTransGen (RefersTo vars) other key) apart ?_ ?_
  · exact fun _ _ apart refers leads => apart (.head refers leads)
  · intro other apart
    refine same other ?_
    rintro rfl
    exact apart .refl

end

/-! ## 2. Updating a variable -/

section

variable {vars vars' : List Variable} {name key : String} {values values' : List (String × Binary64)}

/-- The values that resolving finds are those of the recursive reading. -/
theorem lookup_of_resolve (h : resolve vars = .ok values) {x : Binary64} :
    values.lookup name = some x ↔ naive vars [] name = .ok x := by
  rw [resolve_eq_naiveAll (distinct_of_resolve h)] at h
  obtain ⟨-, -, lookup⟩ := lookup_naiveAll h
  rw [lookup, means_iff_naive.symm]
  exact ⟨fun hx => hx.2, fun hx => ⟨hx.mem_namesOf, hx⟩⟩

/-- **Where two lists differ in one definition, only the values of what leads there differ.** -/
theorem reaches_of_lookup_ne (same : ∀ other ≠ key, definition? vars other = definition? vars' other)
    (resolves : resolve vars = .ok values) (resolves' : resolve vars' = .ok values')
    (differ : values.lookup name ≠ values'.lookup name) :
    ReflTransGen (RefersTo vars) name key := by
  by_contra apart
  have agree : naive vars [] name = naive vars' [] name := (agreeFrom_of_apart same apart).naive_eq
  refine differ (Option.ext fun x => ?_)
  rw [lookup_of_resolve resolves, lookup_of_resolve resolves', agree]

/-- An entry that is put in the place of another changes the definition of its name only. -/
theorem Book.definition?_replaceFirst {entry : Variable} (named : entry.name.text = key)
    {other : String} (ne : other ≠ key) (vs : List Variable) :
    definition? (replaceFirst key entry vs) other = definition? vs other := by
  have differs {v : Variable} (same : v.name.text = key) : (v.name.text == other) = false := by
    simpa [same] using ne.symm
  induction vs with
  | nil => rfl
  | cons v vs ih =>
    unfold replaceFirst definition?
    split
    · rename_i same
      have same' : v.name.text = key := by simpa [isNamed] using same
      rw [List.find?_cons, List.find?_cons, differs named, differs same']
    · rw [List.find?_cons, List.find?_cons]
      split
      · rfl
      · exact ih

/-- **A variable of a book that is updated** changes its own definition only. -/
theorem Book.definition?_of_updateVariable {b b' : Book} {raw text : String}
    (updated : b.updateVariable raw text = .ok b') :
    ∀ other ≠ Name.normalize raw, definition? b.vars other = definition? b'.vars other := by
  obtain ⟨v, found, -, rfl⟩ := updateVariable_eq_ok_iff.mp updated
  rw [findVariable_eq] at found
  have named : v.name.text = Name.normalize raw := definition?_name found
  have named' : ({ v with text := Text.trim text } : Variable).name.text = Name.normalize raw := named
  intro other ne
  exact (definition?_replaceFirst named' ne b.vars).symm

end

/-! ## 3. After any requests -/

namespace Resolution

/-- **Resolving is local.** Two lists of variables with distinct names, whatever else they define and
in whatever order, give the same answer to a name, a value or a failure laid to the same variable, if
they agree on what can be reached from it, after any requests to either. So where a book can be
resolved before and after a variable is updated, values differ only for this variable and for those
whose expressions lead to it, before as well as after. -/
theorem answers_local :
    (∀ vars vars' : List Variable, (namesOf vars).Nodup → (namesOf vars').Nodup →
      ∃ r r', start vars = .ok r ∧ start vars' = .ok r' ∧
        ∀ name, AgreeFrom vars vars' name → ∀ requests requests',
          ((r.after requests).valueOf name).2 = ((r'.after requests').valueOf name).2) ∧
    ∀ (b b' : Book) (raw text : String) (values values' : List (String × Binary64)),
      b.updateVariable raw text = .ok b' → b.resolve = .ok values → b'.resolve = .ok values' →
        ∀ name, values.lookup name ≠ values'.lookup name →
          ReflTransGen (RefersTo b.vars) name (Name.normalize raw) ∧
            ReflTransGen (RefersTo b'.vars) name (Name.normalize raw) := by
  constructor
  · intro vars vars' distinct distinct'
    obtain ⟨r, started, consistent⟩ := start_spec distinct
    obtain ⟨r', started', consistent'⟩ := start_spec distinct'
    refine ⟨r, r', started, started', fun name agree requests requests' => ?_⟩
    rw [(valueOf_spec (after_consistent consistent requests) name).1,
      (valueOf_spec (after_consistent consistent' requests') name).1]
    exact agree.naive_eq
  · intro b b' raw text values values' updated resolves resolves' name differ
    have same := Book.definition?_of_updateVariable updated
    exact ⟨reaches_of_lookup_ne same resolves resolves' differ,
      reaches_of_lookup_ne (fun other ne => (same other ne).symm) resolves' resolves differ.symm⟩

/-- Two names that refer to each other. -/
def facing : List Variable :=
  [⟨⟨"NORTH", by decide⟩, .dynamic, "SOUTH"⟩, ⟨⟨"SOUTH", by decide⟩, .dynamic, "NORTH + WEST"⟩]

/-- The same two in the other order, between a constant that is no number and a name that refers to
itself. -/
def among : List Variable :=
  [⟨⟨"EAST", by decide⟩, .constant, "dawn"⟩, ⟨⟨"SOUTH", by decide⟩, .dynamic, "NORTH + WEST"⟩,
    ⟨⟨"NORTH", by decide⟩, .dynamic, "SOUTH"⟩, ⟨⟨"CENTRE", by decide⟩, .dynamic, "CENTRE"⟩]

/-- A constant and a variable that takes its value. -/
def leaning : Book :=
  ⟨[⟨⟨"WALL", by decide⟩, .constant, "0"⟩, ⟨⟨"LADDER", by decide⟩, .dynamic, "WALL"⟩], []⟩

/-- A circle is reported alike wherever it stands; and the ladder changes with the wall it leans on. -/
theorem facing_among :
    (∃ r', start among = .ok r' ∧ ((r'.after ["EAST", "CENTRE"]).valueOf "NORTH").2 =
      .error (.within "SOUTH" (.circularDependency "NORTH"))) ∧
    ReflTransGen (RefersTo leaning.vars) "LADDER" "WALL" := by
  have north : Lexeme.ofText .dynamic "SOUTH" = .ok [.symbol (.reference "SOUTH")] := by cbv
  have south : Lexeme.ofText .dynamic "NORTH + WEST" = .ok [.symbol (.reference "NORTH"),
      .token (.operator .add), .symbol (.reference "WEST")] := by cbv
  have agree : AgreeFrom facing among "NORTH" := by
    refine .of_closed (S := fun name => name ∈ ["NORTH", "SOUTH", "WEST"]) (by decide) ?_ (by decide)
    rintro a b inside ⟨v, lexemes, found, -, read, refers⟩
    fin_cases inside
    · cases found
      cases north.symm.trans read
      revert b
      decide
    · cases found
      cases south.symm.trans read
      revert b
      decide
    · cases found
  have updated : leaning.updateVariable " wall" " -0 " = .ok
      ⟨[⟨⟨"WALL", by decide⟩, .constant, "-0"⟩, ⟨⟨"LADDER", by decide⟩, .dynamic, "WALL"⟩], []⟩ := by
    cbv
  have before : leaning.resolve = .ok [("WALL", ⟨0⟩), ("LADDER", ⟨0⟩)] :=
    (resolve_eq_naiveAll (by decide)).trans (by cbv)
  have behind : Book.resolve
      ⟨[⟨⟨"WALL", by decide⟩, .constant, "-0"⟩, ⟨⟨"LADDER", by decide⟩, .dynamic, "WALL"⟩], []⟩ =
      .ok [("WALL", ⟨0x8000000000000000⟩), ("LADDER", ⟨0x8000000000000000⟩)] :=
    (resolve_eq_naiveAll (by decide)).trans (by cbv)
  refine ⟨?_, (answers_local.2 _ _ _ _ _ _ updated before behind "LADDER" (by decide)).1⟩
  obtain ⟨r, r', started, started', answers⟩ := answers_local.1 facing among (by decide) (by decide)
  refine ⟨r', started', (answers "NORTH" agree ["WEST"] ["EAST", "CENTRE"]).symm.trans ?_⟩
  rw [(valueOf_spec (after_consistent (consistent_of_start started) ["WEST"]) "NORTH").1]
  cbv

end Resolution

end Reckoner
