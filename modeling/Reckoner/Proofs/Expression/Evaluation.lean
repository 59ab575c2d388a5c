import Reckoner.Postfix
import Reckoner.Proofs.Expression.Grammar

/-!
# Evaluation agrees with the grammar

The tokens of a parse tree are brought into the postfix order of the tree (`Postfix.ofTokens_tokens`),
and the list in postfix order has the computed value of the tree (`Postfix.evaluated`).

**The first step keeps the tree it is in.** When a tree has been read, some of its operators still
wait: those whose right operands were read last. They stand above what waited before, and they bind at
least as tightly as the tree does (`Arranged`). So the next operator, or the parenthesis, moves them
behind the rest of the tree, and what waited before stays where it is.
-/

namespace Reckoner

/-- How tightly the operators of a tree bind at least, apart from those in parentheses. -/
def Level.binding : Level → Nat
  | .expression => 1
  | .term => 2
  | .factor => 3

namespace Postfix

/-! ## 1. Operators that wait -/

/-- Operators that wait, the last one first, above what waited before. -/
def waiting (pending : List Operator) (stack : List Waiting) : List Waiting :=
  pending.map .operator ++ stack

/-- The output, once operators that wait have been moved to it. -/
def settled (pending : List Operator) (out : List Token) : List Token :=
  (pending.map Token.operator).reverse ++ out

@[simp] theorem waiting_cons (o : Operator) (pending : List Operator) (stack : List Waiting) :
    waiting (o :: pending) stack = .operator o :: waiting pending stack := rfl

@[simp] theorem settled_cons (o : Operator) (pending : List Operator) (out : List Token) :
    settled (o :: pending) out = settled pending (.operator o :: out) := by
  simp [settled]

theorem settled_append (pending pending' : List Operator) (out : List Token) :
    settled (pending ++ pending') out = settled pending' (settled pending out) := by
  simp [settled]

theorem waiting_append (pending pending' : List Operator) (stack : List Waiting) :
    waiting (pending ++ pending') stack = waiting pending (waiting pending' stack) := by
  simp [waiting]

/-- An operator releases those that bind as tightly as it does. -/
theorem release_waiting {o : Operator} {pending : List Operator} {stack : List Waiting}
    (h : ∀ p ∈ pending, o.binding ≤ p.binding) (out : List Token) :
    release o out (waiting pending stack) = release o (settled pending out) stack := by
  induction pending generalizing out with
  | nil => rfl
  | cons p pending ih =>
    obtain ⟨hp, hps⟩ := List.forall_mem_cons.mp h
    rw [waiting_cons, settled_cons, release, if_neg (Nat.not_lt.mpr hp)]
    exact ih hps _

/-- A closing parenthesis releases all operators inside of it. -/
theorem close_waiting (pending : List Operator) (out : List Token) (stack : List Waiting) :
    close out (waiting pending (.opening :: stack)) = .ok (settled pending out, stack) := by
  induction pending generalizing out with
  | nil => rfl
  | cons p pending ih =>
    rw [waiting_cons, settled_cons, close]
    exact ih _

/-- The end releases all operators. -/
theorem finish_waiting (pending : List Operator) (out : List Token) :
    finish out (waiting pending []) = .ok (settled pending out).reverse := by
  induction pending generalizing out with
  | nil => rfl
  | cons p pending ih =>
    rw [waiting_cons, settled_cons, finish]
    exact ih _

/-- What waits stays there while a tree of a level is read: the operator on top, if it is one, binds
less tightly. -/
def Clear (l : Level) : List Waiting → Prop
  | .operator top :: _ => top.binding < l.binding
  | .opening :: _ => True
  | [] => True

theorem Clear.mono {l l' : Level} {stack : List Waiting} (h : Clear l stack)
    (hl : l.binding ≤ l'.binding) : Clear l' stack := by
  unfold Clear at *
  split at h
  · exact Nat.lt_of_lt_of_le h hl
  · trivial
  · trivial

/-- An operator of the level releases nothing of what waited before. -/
theorem Clear.release {l : Level} {stack : List Waiting} (h : Clear l stack) {o : Operator}
    (ho : o.binding = l.binding) (out : List Token) : release o out stack = (out, stack) := by
  unfold Clear at h
  split at h
  · rw [Postfix.release, if_pos (ho ▸ h)]
  · rfl
  · rfl

/-! ## 2. Into postfix order -/

/-- **A tree has been read**: its operators that still wait bind as tightly as the tree, and with them
the output is the postfix order of the tree. -/
def Arranged {l : Level} (t : Parse l) (out : List Token) (stack : List Waiting)
    (ts : List Token) : Prop :=
  ∃ done pending, arrange out stack (t.tokens ++ ts) = arrange done (waiting pending stack) ts ∧
    settled pending done = t.listing.reverse ++ out ∧ ∀ p ∈ pending, l.binding ≤ p.binding

/-- Two trees with an operator between them make a tree of the level the operator belongs to. -/
theorem Arranged.binary {l l' : Level} {left : Parse l} {right : Parse l'} {whole : Parse l}
    {o : Operator} (ho : o.binding = l.binding) (hl : l.binding < l'.binding)
    (tokens : whole.tokens = left.tokens ++ .operator o :: right.tokens)
    (listing : whole.listing = left.listing ++ right.listing ++ [.operator o])
    (arrangedLeft : ∀ out stack ts, Clear l stack → Arranged left out stack ts)
    (arrangedRight : ∀ out stack ts, Clear l' stack → Arranged right out stack ts)
    {out : List Token} {stack : List Waiting} {ts : List Token} (clear : Clear l stack) :
    Arranged whole out stack ts := by
  obtain ⟨done, pending, read, order, binds⟩ :=
    arrangedLeft out stack (.operator o :: (right.tokens ++ ts)) clear
  -- the operator moves those of the left tree, and no more
  have released : release o done (waiting pending stack) = (left.listing.reverse ++ out, stack) := by
    rw [release_waiting (fun p hp => ho ▸ binds p hp), order, clear.release ho]
  have clear' : Clear l' (.operator o :: stack) :=
    Nat.lt_of_le_of_lt (Nat.le_of_eq ho) hl
  obtain ⟨done', pending', read', order', binds'⟩ :=
    arrangedRight (left.listing.reverse ++ out) (.operator o :: stack) ts clear'
  refine ⟨done', pending' ++ [o], ?_, ?_, fun p hp => ?_⟩
  · calc arrange out stack (whole.tokens ++ ts)
        = arrange out stack (left.tokens ++ .operator o :: (right.tokens ++ ts)) := by
          rw [tokens, List.append_assoc, List.cons_append]
      _ = arrange (left.listing.reverse ++ out) (.operator o :: stack) (right.tokens ++ ts) := by
          rw [read, arrange, released]
      _ = arrange done' (waiting (pending' ++ [o]) stack) ts := by
          rw [read', waiting_append]
          rfl
  · rw [settled_append, order', listing]
    simp [settled]
  · rcases List.mem_append.mp hp with hp | hp
    · exact Nat.le_trans (Nat.le_of_lt hl) (binds' p hp)
    · rw [List.mem_singleton.mp hp]
      exact Nat.le_of_eq ho.symm

/-- A tree that is also one of a looser level. -/
theorem Arranged.loosen {l l' : Level} {t : Parse l'} {out : List Token} {stack : List Waiting}
    {ts : List Token} (h : Arranged t out stack ts) (whole : Parse l)
    (hl : l.binding ≤ l'.binding) (tokens : whole.tokens = t.tokens)
    (listing : whole.listing = t.listing) : Arranged whole out stack ts := by
  obtain ⟨done, pending, read, order, binds⟩ := h
  exact ⟨done, pending, tokens ▸ read, listing ▸ order, fun p hp => Nat.le_trans hl (binds p hp)⟩

/-- **Every tree is read so**, wherever it stands. -/
theorem arranged {l : Level} (t : Parse l) (out : List Token) (stack : List Waiting)
    (ts : List Token) (clear : Clear l stack) : Arranged t out stack ts := by
  induction t generalizing out stack ts with
  | number x => exact ⟨.number x :: out, [], rfl, rfl, fun p hp => absurd hp List.not_mem_nil⟩
  | group e ih =>
    obtain ⟨done, pending, read, order, -⟩ := ih out (.opening :: stack) (.closing :: ts) trivial
    refine ⟨e.listing.reverse ++ out, [], ?_, rfl, fun p hp => absurd hp List.not_mem_nil⟩
    simp only [Parse.tokens, List.cons_append, List.append_assoc, List.nil_append, arrange]
    rw [read, arrange, close_waiting, order]
    rfl
  | factor f ih =>
    exact (ih out stack ts (clear.mono (by decide))).loosen (.factor f) (by decide) rfl rfl
  | term t ih =>
    exact (ih out stack ts (clear.mono (by decide))).loosen (.term t) (by decide) rfl rfl
  | multiply t f iht ihf | divide t f iht ihf =>
    exact .binary rfl (by decide) rfl rfl iht ihf clear
  | add e t ihe iht | subtract e t ihe iht =>
    exact .binary rfl (by decide) rfl rfl ihe iht clear

/-- **The tokens of an expression are brought into its postfix order.** -/
theorem ofTokens_tokens (e : Parse .expression) : ofTokens e.tokens = .ok e.listing := by
  obtain ⟨done, pending, read, order, -⟩ := arranged e [] [] [] trivial
  rw [List.append_nil] at read order
  rw [ofTokens, read, arrange, finish_waiting, order, List.reverse_reverse]

/-- Operators that bind alike stay in their order. -/
example (x y z : Binary64) :
    ofTokens [.number x, .operator .subtract, .number y, .operator .add, .number z] =
      .ok [.number x, .number y, .operator .subtract, .number z, .operator .add] := rfl

/-! ## 3. The value of a list in postfix order -/

/-- What is to be shown of a tree: its postfix order adds its value to the stack, unless the tree
divides by zero. -/
def Evaluated {l : Level} (t : Parse l) : Prop :=
  ∀ stack, t.listing.foldlM step stack =
    if t.dividesByZero then .error .divisionByZero else .ok (t.value :: stack)

/-- When an operator comes, the values of its two operands are on the stack. -/
theorem Evaluated.binary {l l' l'' : Level} {left : Parse l} {right : Parse l'} {whole : Parse l''}
    {o : Operator} (zero : Bool) (evaluatedLeft : Evaluated left) (evaluatedRight : Evaluated right)
    (listing : whole.listing = left.listing ++ right.listing ++ [.operator o])
    (divides : whole.dividesByZero = (left.dividesByZero || right.dividesByZero || zero))
    (applied : apply o left.value right.value =
      if zero then .error .divisionByZero else .ok whole.value) : Evaluated whole := by
  intro stack
  rw [listing, divides, List.foldlM_append, List.foldlM_append, evaluatedLeft]
  cases left.dividesByZero with
  | true => rfl
  | false =>
    show (right.listing.foldlM step (left.value :: stack) >>= _) = _
    rw [evaluatedRight]
    cases right.dividesByZero with
    | true => rfl
    | false =>
      show ((apply o left.value right.value).map (· :: stack) >>= pure) = _
      rw [applied]
      cases zero <;> rfl

/-- **A list in the postfix order of a tree adds the value of the tree to the stack**, unless the tree
divides by zero. -/
theorem evaluated {l : Level} (t : Parse l) : Evaluated t := by
  induction t with
  | number x => exact fun stack => rfl
  | group e ih => exact ih
  | factor f ih => exact ih
  | term t ih => exact ih
  | multiply t f iht ihf | add t f iht ihf | subtract t f iht ihf =>
    refine iht.binary false ihf rfl ?_ rfl
    simp [Parse.dividesByZero, Parse.divisors]
  | divide t f iht ihf =>
    refine iht.binary f.value.isZero ihf rfl ?_ rfl
    simp [Parse.dividesByZero, Parse.divisors, Bool.or_assoc]

/-- **The postfix order of an expression comes to its computed value**, unless the expression divides
by zero. -/
theorem value_of_parse (e : Parse .expression) : value e.listing =
    if e.dividesByZero then .error .divisionByZero
    else if e.value.isFinite then .ok e.value
    else .error .nonFiniteResult := by
  unfold value
  rw [evaluated]
  cases e.dividesByZero <;> rfl

end Postfix

/-- **Evaluation agrees with the grammar**: the tokens of an expression are brought into its postfix
order. Evaluating them fails with a division by zero where a division of the expression has a right
operand that comes out as zero, of either sign; else it gives the computed value, which only has to
be finite in the end. -/
theorem evaluate_eq_value (e : Parse .expression) :
    Postfix.ofTokens e.tokens = .ok e.listing ∧
      Token.evaluate e.tokens =
        if e.dividesByZero then .error .divisionByZero
        else if e.value.isFinite then .ok e.value
        else .error .nonFiniteResult := by
  have order := Postfix.ofTokens_tokens e
  refine ⟨order, ?_⟩
  unfold Token.evaluate Postfix.value
  rw [order]
  show (e.listing.foldlM Postfix.step [] >>= Postfix.conclude) = _
  rw [Postfix.evaluated]
  cases e.dividesByZero <;> rfl

end Reckoner
