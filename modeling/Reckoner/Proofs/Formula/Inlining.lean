import Reckoner.Proofs.Expression.Group
import Reckoner.Proofs.Formula.Values

/-!
# Resolving is inlining

Instead of resolving the variables of a formula one may write out what they stand for: the number of
a constant, the number of a placeholder, and for a dynamic variable its own expression in
parentheses, written out in turn (`Expands`). **A formula has the value, or the fault, of the tokens
it is written out to** (`Formula.evaluate_eq_expansion`), also where these are no expression.

Where the variables can be resolved nothing depends on itself, so there is an end to writing out
(`exists_expands`). That the two ways agree is shown from the left: what has been written out stands
as it is, and a group that comes next has the value of its variable and may be replaced by it.
-/

namespace Reckoner

/-! ## 1. Writing out -/

/-- **Lexemes are written out to tokens**: placeholders and constants to their numbers, dynamic
variables to what their expressions are written out to, in parentheses. -/
inductive Expands (vars : List Variable) (context : Context) : List Lexeme → List Token → Prop
  | nil : Expands vars context [] []
  | token {ls : List Lexeme} {ts : List Token} (t : Token) (rest : Expands vars context ls ts) :
      Expands vars context (.token t :: ls) (t :: ts)
  | placeholder {name : String} {x : Binary64} {ls : List Lexeme} {ts : List Token}
      (held : context name = some x) (rest : Expands vars context ls ts) :
      Expands vars context (.symbol (.placeholder name) :: ls) (.number x :: ts)
  | constant {name : String} {v : Variable} {x : Binary64} {ls : List Lexeme} {ts : List Token}
      (found : definition? vars name = some v) (kind : v.kind = .constant)
      (read : Number.ofConstant? v.text = some x) (rest : Expands vars context ls ts) :
      Expands vars context (.symbol (.reference name) :: ls) (.number x :: ts)
  | dynamic {name : String} {v : Variable} {inner ls : List Lexeme} {us ts : List Token}
      (found : definition? vars name = some v) (kind : v.kind = .dynamic)
      (read : Lexeme.ofText .dynamic v.text = .ok inner) (group : Expands vars context inner us)
      (rest : Expands vars context ls ts) :
      Expands vars context (.symbol (.reference name) :: ls) (.opening :: us ++ .closing :: ts)

section

variable {vars : List Variable} {context : Context} {ls : List Lexeme} {ts us : List Token}

/-- There is one way of writing out at most. -/
theorem Expands.unique (h : Expands vars context ls ts) (h' : Expands vars context ls us) :
    ts = us := by
  induction h generalizing us with
  | nil =>
    cases h'
    rfl
  | token t _ ih =>
    cases h' with
    | token _ rest => rw [ih rest]
  | placeholder held _ ih =>
    cases h' with
    | placeholder held' rest =>
      cases held.symm.trans held'
      rw [ih rest]
  | constant found kind read _ ih =>
    cases h' with
    | constant found' kind' read' rest =>
      cases found.symm.trans found'
      cases read.symm.trans read'
      rw [ih rest]
    | dynamic found' kind' =>
      cases found.symm.trans found'
      cases kind.symm.trans kind'
  | dynamic found kind read _ _ inside ih =>
    cases h' with
    | constant found' kind' =>
      cases found.symm.trans found'
      cases kind.symm.trans kind'
    | dynamic found' kind' read' group rest =>
      cases found.symm.trans found'
      cases read.symm.trans read'
      rw [inside group, ih rest]

/-- A name can be written out, whatever follows it. -/
def CanExpand (vars : List Variable) (context : Context) (name : String) : Prop :=
  ∀ ls ts, Expands vars context ls ts →
    ∃ us, Expands vars context (.symbol (.reference name) :: ls) us

/-- What refers to nothing but names that can be written out can be written out itself. -/
theorem exists_expands (names : ∀ name ∈ Lexeme.references ls, CanExpand vars context name)
    (held : ∀ name ∈ Lexeme.placeholders ls, (context name).isSome = true) :
    ∃ ts, Expands vars context ls ts := by
  induction ls with
  | nil => exact ⟨[], .nil⟩
  | cons l ls ih =>
    cases l with
    | token t =>
      obtain ⟨ts, rest⟩ := ih names held
      exact ⟨_, .token t rest⟩
    | symbol s =>
      cases s with
      | reference name =>
        obtain ⟨ts, rest⟩ := ih (fun other ho => names other (List.mem_cons_of_mem _ ho)) held
        exact names name List.mem_cons_self ls ts rest
      | placeholder name =>
        obtain ⟨ts, rest⟩ := ih names fun other ho => held other (List.mem_cons_of_mem _ ho)
        obtain ⟨x, hx⟩ := Option.isSome_iff_exists.mp (held name List.mem_cons_self)
        exact ⟨_, .placeholder hx rest⟩

/-- **A name with a value can be written out.** -/
theorem Means.canExpand {name : String} {x : Binary64} (h : Means vars name x) :
    CanExpand vars context name := by
  induction h with
  | constant found kind read => exact fun ls ts rest => ⟨_, .constant found kind read rest⟩
  | dynamic found kind read _ _ ih =>
    intro ls ts rest
    obtain ⟨us, group⟩ := exists_expands ih fun other ho =>
      absurd (Lexeme.mem_placeholders.mp ho) (Lexeme.no_placeholder read other)
    exact ⟨_, .dynamic found kind read group rest⟩

/-! ## 2. The value of what is written out -/

/-- Lists that come to the same behind any tokens do so behind one token more. -/
theorem evaluate_behind {as bs : List Token}
    (same : ∀ before, Token.evaluate (before ++ as) = Token.evaluate (before ++ bs)) (t : Token)
    (before : List Token) :
    Token.evaluate (before ++ t :: as) = Token.evaluate (before ++ t :: bs) := by
  rw [List.append_cons, same, ← List.append_cons]

/-- **Writing out and binding come to the same**, behind any tokens. -/
theorem Expands.evaluate_eq {values : List (String × Binary64)}
    (resolves : resolve vars = .ok values) (h : Expands vars context ls ts) :
    ∀ {bound : List Token},
      Lexeme.bind (Formula.symbolValue (Formula.tableValue values) context) ls = .ok bound →
      ∀ before, Token.evaluate (before ++ ts) = Token.evaluate (before ++ bound) := by
  induction h with
  | nil =>
    intro bound hb before
    cases hb
    rfl
  | token t _ ih =>
    intro bound hb
    obtain ⟨t', bound', first, hb', rfl⟩ := Lexeme.bind_cons_ok hb
    cases first
    exact evaluate_behind (ih hb') t
  | placeholder held _ ih =>
    intro bound hb
    obtain ⟨t', bound', first, hb', rfl⟩ := Lexeme.bind_cons_ok hb
    simp only [Lexeme.toToken, Formula.symbolValue, held] at first
    cases first
    exact evaluate_behind (ih hb') _
  | @constant name v x ls ts found kind read _ ih =>
    intro bound hb
    obtain ⟨t', bound', first, hb', rfl⟩ := Lexeme.bind_cons_ok hb
    have value : Formula.tableValue values name = some x :=
      (Formula.tableValue_iff resolves name x).mpr (.constant found kind read)
    simp only [Lexeme.toToken, Formula.symbolValue, value] at first
    cases first
    exact evaluate_behind (ih hb') _
  | @dynamic name v inner ls us ts found kind read _ _ inside ih =>
    intro bound hb before
    obtain ⟨t', bound', first, hb', rfl⟩ := Lexeme.bind_cons_ok hb
    obtain ⟨y, value, rfl⟩ := map_eq_ok first
    have hy : Means vars name y := by
      refine (Formula.tableValue_iff resolves name y).mp ?_
      cases hk : Formula.tableValue values name with
      | none => simp [Formula.symbolValue, hk] at value
      | some x => simpa [Formula.symbolValue, hk] using value
    -- the group has the value of its variable
    obtain ⟨inner', of, read', derived, evaluated⟩ := hy.of_dynamic found kind
    cases read.symm.trans read'
    have binds : Lexeme.bind (Formula.symbolValue (Formula.tableValue values) context) inner =
        .ok (inner.map (Lexeme.fill of)) :=
      bind_symbolValue (Lexeme.no_placeholder read) fun other ho =>
        (Formula.tableValue_iff resolves _ _).mpr (derived other ho)
    have group : Token.evaluate us = .ok y := (inside binds []).trans evaluated
    calc Token.evaluate (before ++ (.opening :: us ++ .closing :: ts))
      _ = Token.evaluate (before ++ (.opening :: us ++ [.closing]) ++ ts) := by simp
      _ = Token.evaluate (before ++ [.number y] ++ ts) := Token.evaluate_group group before ts
      _ = Token.evaluate (before ++ [.number y] ++ bound') := ih hb' _
      _ = Token.evaluate (before ++ .number y :: bound') := by rw [← List.append_cons]

end

/-! ## 3. Formulas -/

/-- **Resolving variables is inlining their definitions**: a formula over variables that can be
resolved, which refers to nothing but these, in a context that holds its placeholders, is written
out in one way, and has the value or the fault of the tokens it is written out to. -/
theorem Formula.evaluate_eq_expansion {vars : List Variable} {values : List (String × Binary64)}
    {context : Context} {expression : String} {lexemes : List Lexeme}
    (resolves : resolve vars = .ok values)
    (read : Lexeme.ofText .formula expression = .ok lexemes)
    (defined : ∀ name ∈ Lexeme.references lexemes, name ∈ namesOf vars)
    (held : ∀ name ∈ Placeholder.names expression, (context name).isSome = true) :
    ∃ ts, Expands vars context lexemes ts ∧ (∀ us, Expands vars context lexemes us → us = ts) ∧
      (evaluate vars context expression).map Evaluation.value =
        (Token.evaluate ts).mapError Failure.plain := by
  have held' : ∀ name ∈ Lexeme.placeholders lexemes, (context name).isSome = true := by
    intro name hn
    refine held name (Placeholder.mem_names.mpr ?_)
    rwa [← Lexeme.placeholders_of_ofText rfl read]
  have names : ∀ name ∈ Lexeme.references lexemes, CanExpand vars context name := by
    intro name hn
    obtain ⟨x, hx⟩ := exists_tableValue resolves (defined name hn)
    exact ((tableValue_iff resolves name x).mp hx).canExpand
  obtain ⟨ts, expands⟩ := exists_expands names held'
  obtain ⟨bound, hb⟩ : ∃ bound,
      Lexeme.bind (symbolValue (tableValue values) context) lexemes = .ok bound := by
    refine Lexeme.exists_bind fun s hs => ?_
    cases s with
    | reference name =>
      obtain ⟨x, hx⟩ := exists_tableValue resolves (defined name (Lexeme.mem_references.mpr hs))
      exact ⟨x, by simp only [symbolValue, hx]⟩
    | placeholder name =>
      obtain ⟨x, hx⟩ := Option.isSome_iff_exists.mp (held' name (Lexeme.mem_placeholders.mpr hs))
      exact ⟨x, by simp only [symbolValue, hx]⟩
  refine ⟨ts, expands, fun us h => h.unique expands, ?_⟩
  have same : Token.evaluate ts = Token.evaluate bound := expands.evaluate_eq resolves hb []
  rw [evaluate_of_resolve resolves held, read, same]
  show (Lexeme.bind _ lexemes >>= Token.evaluate).mapError _ = _
  rw [hb]
  rfl

/-- A dynamic variable that refers to a constant. -/
def nested : List Variable :=
  [⟨⟨"OUTER", by decide⟩, .dynamic, "(INNER)"⟩, ⟨⟨"INNER", by decide⟩, .constant, "0"⟩]

/-- A context that holds `x` only. -/
def holdsX (x : Binary64) : Context :=
  fun name => if name = "x" then some x else none

/-- `OUTER * {{#x}}` has the value of `((0)) * x`. -/
theorem nested_evaluate :
    (Formula.evaluate nested (holdsX ⟨1⟩) "OUTER * \x7b\x7b#x\x7d\x7d").map Evaluation.value =
      (Token.evaluate [.opening, .opening, .number ⟨0⟩, .closing, .closing, .operator .multiply,
        .number ⟨1⟩]).mapError Failure.plain := by
  have resolves : resolve nested = .ok [("OUTER", ⟨0⟩), ("INNER", ⟨0⟩)] := by
    rw [resolve_eq_naiveAll (by decide)]
    cbv
  have read : Lexeme.ofText .formula "OUTER * \x7b\x7b#x\x7d\x7d" = .ok
      [.symbol (.reference "OUTER"), .token (.operator .multiply), .symbol (.placeholder "x")] := by
    cbv
  have names : Placeholder.names "OUTER * \x7b\x7b#x\x7d\x7d" = ["x"] := by cbv
  have held : ∀ name ∈ Placeholder.names "OUTER * \x7b\x7b#x\x7d\x7d",
      (holdsX ⟨1⟩ name).isSome = true := by
    rw [names]
    decide
  obtain ⟨ts, -, unique, value⟩ :=
    Formula.evaluate_eq_expansion resolves read (by decide) held
  have read' : Lexeme.ofText .dynamic "(INNER)" = .ok
      [.token .opening, .symbol (.reference "INNER"), .token .closing] := by cbv
  have zero : Number.ofConstant? "0" = some ⟨0⟩ := by cbv
  have expands : Expands nested (holdsX ⟨1⟩)
      [.symbol (.reference "OUTER"), .token (.operator .multiply), .symbol (.placeholder "x")]
      [.opening, .opening, .number ⟨0⟩, .closing, .closing, .operator .multiply, .number ⟨1⟩] :=
    .dynamic rfl rfl read' (.token _ (.constant rfl rfl zero (.token _ .nil)))
      (.token _ (.placeholder rfl .nil))
  rw [value, unique _ expands]

end Reckoner
