import Reckoner.Proofs.Expression.Evaluation
import Reckoner.Proofs.Resolution.Solution

/-!
# What evaluation accepts

Bringing tokens into postfix order forgets where the operands stood. Only the parentheses are checked
on the way (`Postfix.ofTokens_ok_iff`); afterwards the operators have to find their operands, wherever
these were written. So a list is accepted exactly if its postfix order is that of an expression which
has a value (`evaluate_ok_iff`), though the list itself may be none: `1 2 +` has the postfix order of
`1 + 2`, and `() 1` that of `1`.

**What is accepted and is an expression are told apart by alternation alone**
(`accepted_of_evaluate`): an accepted list is an expression exactly if operands and operators alternate
in it.
-/

namespace Reckoner

namespace Postfix

/-! ## 1. Which lists have a postfix order -/

/-- How many parentheses are open. -/
def depth (stack : List Waiting) : Nat :=
  stack.count .opening

@[simp] theorem depth_operator (o : Operator) (stack : List Waiting) :
    depth (.operator o :: stack) = depth stack := by
  simp [depth]

@[simp] theorem depth_opening (stack : List Waiting) :
    depth (.opening :: stack) = depth stack + 1 := by
  simp [depth]

theorem depth_release (o : Operator) (out : List Token) (stack : List Waiting) :
    depth (release o out stack).2 = depth stack := by
  fun_induction release o out stack with
  | case1 => rfl
  | case2 out top stack _ ih => rw [ih, depth_operator]
  | case3 => rfl

/-- A closing parenthesis needs an open one. -/
theorem close_ok (out : List Token) (stack : List Waiting) :
    (depth stack = 0 ∧ close out stack = .error .mismatchedParentheses) ∨
      ∃ out' stack', close out stack = .ok (out', stack') ∧ depth stack = depth stack' + 1 := by
  fun_induction close out stack with
  | case1 out top stack ih => simpa only [depth_operator] using ih
  | case2 out stack => exact .inr ⟨out, stack, rfl, depth_opening stack⟩
  | case3 => exact .inl ⟨rfl, rfl⟩

/-- At the end no parenthesis may be open. -/
theorem finish_ok_iff {out : List Token} {stack : List Waiting} :
    (∃ order, finish out stack = .ok order) ↔ depth stack = 0 := by
  fun_induction finish out stack with
  | case1 out top stack ih => rw [ih, depth_operator]
  | case2 => simp
  | case3 => simp [depth]

theorem arrange_ok_iff {out : List Token} {stack : List Waiting} {ts : List Token} :
    (∃ order, arrange out stack ts = .ok order) ↔ balanced (depth stack) ts = true := by
  fun_induction arrange out stack ts with
  | case1 out stack => rw [finish_ok_iff, balanced, beq_iff_eq]
  | case2 out stack x ts ih => rw [ih, balanced]
  | case3 out stack o ts out' stack' released ih =>
    have hd := depth_release o out stack
    rw [released] at hd
    rw [ih, depth_operator, balanced, ← hd]
  | case4 out stack ts ih => rw [ih, depth_opening, balanced]
  | case5 out stack ts out' stack' closed ih =>
    rcases close_ok out stack with ⟨-, he⟩ | ⟨_, _, hc, hd⟩
    · cases closed.symm.trans he
    · cases closed.symm.trans hc
      rw [ih, hd, balanced]
  | case6 out stack ts fault closed =>
    rcases close_ok out stack with ⟨hd, -⟩ | ⟨_, _, hc, -⟩
    · rw [hd]
      simp [balanced]
    · cases closed.symm.trans hc

/-- **A list has a postfix order exactly if its parentheses match.** -/
theorem ofTokens_ok_iff {ts : List Token} :
    (∃ order, ofTokens ts = .ok order) ↔ balanced 0 ts = true :=
  arrange_ok_iff

end Postfix

/-! ## 2. The expression behind a postfix order -/

/-- Two expressions with an operator between them. -/
def Parse.combine (left : Parse .expression) (o : Operator) (right : Parse .expression) :
    Parse .expression :=
  match o with
  | .add => .add left (.factor (.group right))
  | .subtract => .subtract left (.factor (.group right))
  | .multiply => .term (.multiply (.factor (.group left)) (.group right))
  | .divide => .term (.divide (.factor (.group left)) (.group right))

namespace Parse

theorem listing_combine (left : Parse .expression) (o : Operator) (right : Parse .expression) :
    (left.combine o right).listing = left.listing ++ right.listing ++ [.operator o] := by
  cases o <;> rfl

theorem value_combine {left right : Parse .expression} {o : Operator} {x : Binary64}
    (h : Postfix.apply o left.value right.value = .ok x) : (left.combine o right).value = x := by
  cases o with
  | add | subtract | multiply => exact Except.ok.inj h
  | divide =>
    simp only [Postfix.apply] at h
    split at h
    · cases h
    · exact Except.ok.inj h

/-- The postfix orders of expressions on a stack, whose top is first. -/
def listings (es : List (Parse .expression)) : List Token :=
  (es.reverse.map listing).flatten

theorem listings_cons (e : Parse .expression) (es : List (Parse .expression)) :
    listings (e :: es) = listings es ++ e.listing := by
  simp [listings]

end Parse

namespace Postfix

/-- **What a token does to values, it does to expressions that have these values.** -/
theorem step_listings {es : List (Parse .expression)} {t : Token} {xs : List Binary64}
    (h : step (es.map Parse.value) t = .ok xs) :
    ∃ es', es'.map Parse.value = xs ∧ Parse.listings es' = Parse.listings es ++ [t] := by
  cases t with
  | number x =>
    cases h
    exact ⟨.term (.factor (.number x)) :: es, rfl, Parse.listings_cons _ _⟩
  | operator o =>
    match es, h with
    | right :: left :: es, h =>
      obtain ⟨x, ha, rfl⟩ := map_eq_ok h
      refine ⟨left.combine o right :: es, ?_, ?_⟩
      · rw [List.map_cons, Parse.value_combine ha]
      · simp only [Parse.listings_cons, Parse.listing_combine, List.append_assoc]
  | opening => cases h
  | closing => cases h

/-- The values that a list in postfix order leaves are those of expressions in this order. -/
theorem foldlM_listings : ∀ {order : List Token} {es : List (Parse .expression)}
    {xs : List Binary64}, order.foldlM step (es.map Parse.value) = .ok xs →
      ∃ es', es'.map Parse.value = xs ∧ Parse.listings es' = Parse.listings es ++ order
  | [], es, xs, h => by
      cases h
      exact ⟨es, rfl, (List.append_nil _).symm⟩
  | t :: order, es, xs, h => by
      rw [List.foldlM_cons] at h
      obtain ⟨ys, hs, h⟩ := bind_eq_ok h
      obtain ⟨es', rfl, hl⟩ := step_listings hs
      obtain ⟨es'', hx, hl'⟩ := foldlM_listings h
      refine ⟨es'', hx, ?_⟩
      rw [hl', hl, List.append_assoc]
      rfl

/-- A run that leaves one number has read the postfix order of an expression with this value. -/
theorem listing_of_foldlM {order : List Token} {x : Binary64}
    (h : order.foldlM step [] = .ok [x]) :
    ∃ e : Parse .expression, e.listing = order ∧ e.value = x := by
  obtain ⟨es, values, listed⟩ := @foldlM_listings order [] _ h
  match es, values, listed with
  | [e], values, listed =>
    exact ⟨e, by simpa [Parse.listings] using listed, (List.cons.inj values).1⟩

/-- **A list in postfix order that has a value is the postfix order of an expression.** -/
theorem listing_of_value {order : List Token} {x : Binary64} (h : value order = .ok x) :
    ∃ e : Parse .expression, e.listing = order ∧ e.value = x ∧ x.isFinite = true := by
  unfold value at h
  obtain ⟨xs, run, h⟩ := bind_eq_ok h
  match xs, run, h with
  | [y], run, h =>
    obtain ⟨e, listed, rfl⟩ := listing_of_foldlM run
    simp only [conclude] at h
    split at h
    · rename_i finite
      cases h
      exact ⟨e, listed, rfl, finite⟩
    · cases h

end Postfix

/-- **A list is accepted exactly if its postfix order is that of an expression that has a value.** -/
theorem evaluate_ok_iff {ts : List Token} {x : Binary64} :
    Token.evaluate ts = .ok x ↔ ∃ e : Parse .expression, Postfix.ofTokens ts = .ok e.listing ∧
      e.dividesByZero = false ∧ e.value = x ∧ x.isFinite = true := by
  constructor
  · intro h
    unfold Token.evaluate at h
    obtain ⟨order, ho, h⟩ := bind_eq_ok h
    obtain ⟨e, rfl, rfl, finite⟩ := Postfix.listing_of_value h
    refine ⟨e, ho, ?_, rfl, finite⟩
    rw [Postfix.value_of_parse] at h
    cases hz : e.dividesByZero with
    | false => rfl
    | true => rw [hz] at h; cases h
  · rintro ⟨e, order, zero, rfl, finite⟩
    unfold Token.evaluate
    rw [order]
    show Postfix.value e.listing = _
    rw [Postfix.value_of_parse, zero]
    exact if_pos finite

/-! ## 3. Accepted lists and expressions -/

/-- **What is known of a list that was accepted with a value.** -/
structure Accepted (ts : List Token) (x : Binary64) : Prop where
  evaluated : Token.evaluate ts = .ok x
  parentheses : balanced 0 ts = true
  behind : ∃ e : Parse .expression, Postfix.ofTokens ts = .ok e.listing ∧ e.value = x
  derivable_iff : Derivable ts ↔ alternates .operand ts = true

/-- Where the parentheses match, alternation is all that an expression needs. -/
theorem accepted_of_evaluate {ts : List Token} {x : Binary64} (h : Token.evaluate ts = .ok x) :
    Accepted ts x := by
  obtain ⟨e, order, -, value, -⟩ := evaluate_ok_iff.mp h
  have parentheses := Postfix.ofTokens_ok_iff.mp ⟨_, order⟩
  refine ⟨h, parentheses, ⟨e, order, value⟩, ?_⟩
  rw [derivable_iff]
  exact and_iff_left parentheses

/-- A text that has a value was accepted as the list of its tokens. -/
theorem accepted_of_evaluateText {s : String} {x : Binary64} (h : evaluateText s = .ok x) :
    ∃ ts, Token.ofText s = .ok ts ∧ Accepted ts x := by
  unfold evaluateText at h
  obtain ⟨ts, ht, h⟩ := bind_eq_ok h
  exact ⟨ts, ht, accepted_of_evaluate h⟩

/-- The value of a dynamic variable was accepted for its expression, with the values of the variables
it refers to in their places. -/
theorem Means.accepted {vars : List Variable} {name : String} {x : Binary64} (h : Means vars name x)
    {v : Variable} (found : definition? vars name = some v) (kind : v.kind = .dynamic) :
    ∃ lexemes value, Lexeme.ofText .dynamic v.text = .ok lexemes ∧
      (∀ other ∈ Lexeme.references lexemes, Means vars other (value other)) ∧
      Accepted (lexemes.map (Lexeme.fill value)) x := by
  obtain ⟨lexemes, value, read, known, evaluated⟩ := h.of_dynamic found kind
  exact ⟨lexemes, value, read, known, accepted_of_evaluate evaluated⟩

/-- **What a variable means is finite.** -/
theorem Means.isFinite {vars : List Variable} {name : String} {x : Binary64}
    (h : Means vars name x) : x.isFinite = true := by
  cases h with
  | constant _ _ read => exact Number.isFinite_of_ofConstant? read
  | dynamic _ _ _ _ evaluated =>
    obtain ⟨e, -, -, -, finite⟩ := evaluate_ok_iff.mp evaluated
    exact finite

/-- The value of a formula was accepted for the tokens it was found from. -/
theorem Formula.accepted_of_evaluate {vars : List Variable} {context : Context}
    {expression : String} {e : Evaluation}
    (h : Formula.evaluate vars context expression = .ok e) : Accepted e.tokens e.value := by
  unfold Formula.evaluate at h
  dsimp only at h
  split at h
  · cases h
  · split at h
    · cases h
    · split at h
      · cases h
      · rename_i tokens x he
        cases h
        rw [Formula.evaluateWith_bind] at he
        obtain ⟨lexemes, -, he⟩ := bind_eq_ok he
        obtain ⟨ts, -, he⟩ := bind_eq_ok he
        obtain ⟨y, hy, he⟩ := bind_eq_ok he
        cases he
        exact Reckoner.accepted_of_evaluate hy

/-- **Whatever is accepted is an expression exactly if it alternates**: a token list, a text, a
dynamic variable after any requests, each dynamic variable where all are resolved, and a formula. -/
theorem accepted_everywhere (ts : List Token) (text : String) (vars : List Variable)
    (requests : List String) (context : Context) :
    (∀ x, Token.evaluate ts = .ok x → Accepted ts x) ∧
      (∀ x, evaluateText text = .ok x → ∃ ts, Token.ofText text = .ok ts ∧ Accepted ts x) ∧
      (∀ r, Resolution.start vars = .ok r → ∀ name x v,
        ((r.after requests).valueOf name).2 = .ok x → definition? vars name = some v →
        v.kind = .dynamic → ∃ lexemes value, Lexeme.ofText .dynamic v.text = .ok lexemes ∧
          (∀ other ∈ Lexeme.references lexemes,
            ((r.after requests).valueOf other).2 = .ok (value other)) ∧
          Accepted (lexemes.map (Lexeme.fill value)) x) ∧
      (∀ values, resolve vars = .ok values → ∀ v ∈ vars, v.kind = .dynamic →
        ∃ x lexemes value, values.lookup v.name.text = some x ∧
          Lexeme.ofText .dynamic v.text = .ok lexemes ∧
          (∀ other ∈ Lexeme.references lexemes, values.lookup other = some (value other)) ∧
          Accepted (lexemes.map (Lexeme.fill value)) x) ∧
      ∀ e, Formula.evaluate vars context text = .ok e → Accepted e.tokens e.value := by
  refine ⟨fun _ => accepted_of_evaluate, fun _ => accepted_of_evaluateText, ?_, ?_,
    fun _ => Formula.accepted_of_evaluate⟩
  · intro r hs name x v hx found kind
    have answers := fun other => (Resolution.valueOf_spec
      (Resolution.after_consistent (Resolution.consistent_of_start hs) requests) other).1
    rw [answers, ← means_iff_naive] at hx
    obtain ⟨lexemes, value, read, known, accepted⟩ := hx.accepted found kind
    refine ⟨lexemes, value, read, fun other ho => ?_, accepted⟩
    rw [answers]
    exact means_iff_naive.mp (known other ho)
  · intro values h v hv kind
    have distinct := distinct_of_resolve h
    rw [resolve_eq_naiveAll distinct] at h
    obtain ⟨-, derived, lookup⟩ := lookup_naiveAll h
    obtain ⟨x, hx⟩ := derived v hv
    obtain ⟨lexemes, value, read, known, accepted⟩ :=
      hx.accepted (definition?_of_mem distinct hv) kind
    exact ⟨x, lexemes, value, (lookup _ x).mpr ⟨hx.mem_namesOf, hx⟩, read,
      fun other ho => (lookup _ _).mpr ⟨(known other ho).mem_namesOf, known other ho⟩, accepted⟩

/-- A number in parentheses is accepted and is an expression. -/
theorem accepted_group :
    Token.evaluate [.opening, .number ⟨0x3ff0000000000000⟩, .closing] =
        .ok ⟨0x3ff0000000000000⟩ ∧
      Derivable [.opening, .number ⟨0x3ff0000000000000⟩, .closing] := by
  have h : Token.evaluate [.opening, .number ⟨0x3ff0000000000000⟩, .closing] =
      .ok ⟨0x3ff0000000000000⟩ := by decide
  have accepted := (accepted_everywhere _ "" [] [] fun _ => none).1 _ h
  exact ⟨h, accepted.derivable_iff.mpr rfl⟩

/-- A number behind an empty pair of parentheses is accepted and is no expression. -/
theorem accepted_empty_group :
    Token.evaluate [.opening, .closing, .number ⟨0x3ff0000000000000⟩] =
        .ok ⟨0x3ff0000000000000⟩ ∧
      ¬ Derivable [.opening, .closing, .number ⟨0x3ff0000000000000⟩] := by
  refine ⟨by decide, fun derivable => ?_⟩
  cases (derivable_iff.mp derivable).1

end Reckoner
