import Reckoner.Proofs.Acceptance

/-!
# A group stands for its value

Where a token list has a value, the same list in parentheses may be replaced by that value, whatever
stands before and behind it (`evaluate_group`): the whole comes to the same value or the same fault,
also where it is no expression.

Bringing the whole into postfix order treats the group as it treats the list on its own: an operator
releases nothing below an open parenthesis, and the closing one releases what the end of the list
would (`Postfix.arrange_group`). What comes out for the group is the postfix order of an expression,
since it has a value; so it adds this value to whatever is on the stack (`Postfix.value_replace`).

`Token.Simplifies` is one replacement, and **any number of them keeps the outcome**
(`Token.evaluate_replaced`).
-/

namespace Reckoner

namespace Postfix

/-! ## 1. What is read before -/

/-- Tokens that are read bring the arrangement to a state, from which it goes on with those behind
them; or a parenthesis among them is not matched. -/
theorem arrange_append (before : List Token) (out : List Token) (stack : List Waiting) :
    (∃ fault, ∀ ts, arrange out stack (before ++ ts) = .error fault) ∨
      ∃ out' stack', ∀ ts, arrange out stack (before ++ ts) = arrange out' stack' ts := by
  induction before generalizing out stack with
  | nil => exact .inr ⟨out, stack, fun ts => rfl⟩
  | cons t before ih =>
    cases t with
    | number x => exact ih _ _
    | operator o => exact ih _ _
    | opening => exact ih _ _
    | closing =>
      simp only [List.cons_append, arrange]
      cases closed : close out stack with
      | error fault => exact .inl ⟨fault, fun ts => rfl⟩
      | ok next => exact ih next.1 next.2

/-! ## 2. What is put out already -/

theorem release_out (o : Operator) (out before : List Token) (stack : List Waiting) :
    release o (out ++ before) stack =
      ((release o out stack).1 ++ before, (release o out stack).2) := by
  fun_induction release o out stack with
  | case1 out top stack looser => rw [release, if_pos looser]
  | case2 out top stack tighter ih => rw [release, if_neg tighter, ← List.cons_append, ih]
  | case3 out stack h => rw [release]; exact h

theorem close_out (out before : List Token) (stack : List Waiting) :
    close (out ++ before) stack =
      (close out stack).map fun next => (next.1 ++ before, next.2) := by
  fun_induction close out stack with
  | case1 out top stack ih => rw [close, ← List.cons_append, ih]
  | case2 => rfl
  | case3 => rfl

theorem finish_out (out before : List Token) (stack : List Waiting) :
    finish (out ++ before) stack = (finish out stack).map (before.reverse ++ ·) := by
  fun_induction finish out stack with
  | case1 out top stack ih => rw [finish, ← List.cons_append, ih]
  | case2 => rfl
  | case3 out => simp [finish, Except.map]

/-- **What is put out already stays in front.** -/
theorem arrange_out (out before : List Token) (stack : List Waiting) (ts : List Token) :
    arrange (out ++ before) stack ts = (arrange out stack ts).map (before.reverse ++ ·) := by
  fun_induction arrange out stack ts with
  | case1 out stack => rw [arrange, finish_out]
  | case2 out stack x ts ih => rw [arrange, ← List.cons_append, ih]
  | case3 out stack o ts out' stack' released ih =>
    rw [arrange, release_out, released]
    exact ih
  | case4 out stack ts ih => rw [arrange, ih]
  | case5 out stack ts out' stack' closed ih =>
    rw [arrange, close_out, closed]
    exact ih
  | case6 out stack ts fault closed =>
    rw [arrange, close_out, closed]
    rfl

/-! ## 3. Inside of a parenthesis -/

section Inside

variable {out out' : List Token} {inner inner' : List Waiting} (stack : List Waiting)

theorem release_inside {o : Operator} (h : release o out inner = (out', inner')) :
    release o out (inner ++ .opening :: stack) = (out', inner' ++ .opening :: stack) := by
  fun_induction release o out inner with
  | case1 out top inner looser =>
    cases h
    rw [List.cons_append, release, if_pos looser]
  | case2 out top inner tighter ih =>
    rw [List.cons_append, release, if_neg tighter, ih h]
  | case3 out inner blocked =>
    cases h
    cases inner' with
    | nil => rfl
    | cons top inner =>
      cases top with
      | operator top => exact (blocked top inner rfl).elim
      | opening => rfl

theorem close_inside (h : close out inner = .ok (out', inner')) :
    close out (inner ++ .opening :: stack) = .ok (out', inner' ++ .opening :: stack) := by
  fun_induction close out inner with
  | case1 out top inner ih => rw [List.cons_append, close, ih h]
  | case2 => cases h; rfl
  | case3 => cases h

/-- A closing parenthesis does for a group what the end does for a list. -/
theorem close_of_finish {order : List Token} (h : finish out inner = .ok order) :
    close out (inner ++ .opening :: stack) = .ok (order.reverse, stack) := by
  fun_induction finish out inner with
  | case1 out top inner ih => rw [List.cons_append, close, ih h]
  | case2 => cases h
  | case3 out => cases h; simp [close]

theorem arrange_inside {order ts : List Token} (behind : List Token)
    (h : arrange out inner ts = .ok order) :
    arrange out (inner ++ .opening :: stack) (ts ++ .closing :: behind) =
      arrange order.reverse stack behind := by
  fun_induction arrange out inner ts with
  | case1 out inner => rw [List.nil_append, arrange, close_of_finish stack h]
  | case2 out inner x ts ih => exact ih h
  | case3 out inner o ts out' inner' released ih =>
    rw [List.cons_append, arrange, release_inside stack released]
    exact ih h
  | case4 out inner ts ih => exact ih h
  | case5 out inner ts out' inner' closed ih =>
    rw [List.cons_append, arrange, close_inside stack closed]
    exact ih h
  | case6 => cases h

/-- **A group is brought into the postfix order of what is in it.** -/
theorem arrange_group {order ts : List Token} (out behind : List Token)
    (h : ofTokens ts = .ok order) :
    arrange out stack (.opening :: ts ++ .closing :: behind) =
      arrange (order.reverse ++ out) stack behind := by
  have inside : arrange out [] ts = .ok (out.reverse ++ order) := by
    have := arrange_out [] out [] ts
    rw [List.nil_append, show arrange [] [] ts = .ok order from h] at this
    exact this
  have := arrange_inside stack behind inside
  rw [List.reverse_append, List.reverse_reverse] at this
  exact this

end Inside

/-! ## 4. The value of a group -/

/-- The postfix order of an expression that has a value may be replaced by it. -/
theorem value_replace {e : Parse .expression} (h : e.dividesByZero = false)
    (before behind : List Token) :
    value (before ++ e.listing ++ behind) = value (before ++ [.number e.value] ++ behind) := by
  unfold value
  simp only [List.foldlM_append]
  congr 1
  cases List.foldlM step [] before with
  | error fault => rfl
  | ok xs =>
    show (e.listing.foldlM step xs >>= fun ys => behind.foldlM step ys) = _
    rw [evaluated, h]
    rfl

end Postfix

/-- **A group may be replaced by its value**, wherever it stands and whatever stands around it. -/
theorem Token.evaluate_group {ts : List Token} {x : Binary64} (h : evaluate ts = .ok x)
    (before behind : List Token) :
    evaluate (before ++ (.opening :: ts ++ [.closing]) ++ behind) =
      evaluate (before ++ [.number x] ++ behind) := by
  obtain ⟨e, order, zero, rfl, -⟩ := evaluate_ok_iff.mp h
  have group : ∀ out stack, Postfix.arrange out stack (.opening :: ts ++ [.closing] ++ behind) =
      Postfix.arrange (e.listing.reverse ++ out) stack behind := by
    intro out stack
    rw [← Postfix.arrange_group stack out behind order]
    simp
  unfold evaluate Postfix.ofTokens
  rw [List.append_assoc before, List.append_assoc before]
  rcases Postfix.arrange_append before [] [] with ⟨fault, fails⟩ | ⟨out, stack, reads⟩
  · rw [fails, fails]
  · rw [reads, reads, group, List.cons_append, List.nil_append, Postfix.arrange,
      ← List.nil_append (e.listing.reverse ++ out), ← List.nil_append (.number e.value :: out),
      Postfix.arrange_out, Postfix.arrange_out]
    cases Postfix.arrange [] stack behind with
    | error fault => rfl
    | ok rest =>
      show Postfix.value ((e.listing.reverse ++ out).reverse ++ rest) =
        Postfix.value ((.number e.value :: out).reverse ++ rest)
      rw [List.reverse_append, List.reverse_reverse, List.reverse_cons]
      exact Postfix.value_replace zero out.reverse rest

/-! ## 5. Any number of groups -/

namespace Token

/-- **One group of a list is replaced by its value.** What stands around it need not have one: other
parentheses may be unmatched, and operands may be missing. -/
inductive Simplifies : List Token → List Token → Prop
  | group {ts : List Token} {x : Binary64} (before behind : List Token)
      (evaluated : evaluate ts = .ok x) :
      Simplifies (before ++ (.opening :: ts ++ [.closing]) ++ behind) (before ++ [.number x] ++ behind)

/-- One replacement keeps the outcome. -/
theorem Simplifies.evaluate_eq {ts us : List Token} (h : Simplifies ts us) :
    evaluate ts = evaluate us := by
  cases h with
  | group before behind evaluated => exact evaluate_group evaluated before behind

/-- Replacements one after another keep the outcome: a group may hold one that was replaced before. -/
theorem evaluate_eq_of_simplifies {ts us : List Token} (h : Relation.ReflTransGen Simplifies ts us) :
    evaluate ts = evaluate us := by
  induction h with
  | refl => rfl
  | tail _ last ih => exact ih.trans last.evaluate_eq

/-- **Groups may be replaced by their values**, wherever they stand and whatever stands around them:
one of them, or any number one after another. The list comes to the same value or the same fault. -/
theorem evaluate_replaced :
    (∀ (before ts behind : List Token) (x : Binary64), evaluate ts = .ok x →
      evaluate (before ++ [.opening] ++ ts ++ [.closing] ++ behind) =
        evaluate (before ++ [.number x] ++ behind)) ∧
      ∀ ts us, Relation.ReflTransGen Simplifies ts us → evaluate ts = evaluate us := by
  refine ⟨fun before ts behind x evaluated => ?_, fun _ _ => evaluate_eq_of_simplifies⟩
  have replaced := evaluate_group evaluated before behind
  simpa only [List.append_assoc, List.cons_append, List.nil_append] using replaced

/-- The group `(() 1)` may be replaced by `1`, also between numbers without an operator, where three
values are left over either way; and where it is all that is in another group, this one may be replaced
after it. -/
theorem evaluate_replaced_between :
    evaluate [.opening, .closing, .number ⟨0x3ff0000000000000⟩] = .ok ⟨0x3ff0000000000000⟩ ∧
      evaluate [.number ⟨0x4000000000000000⟩, .opening, .opening, .closing,
        .number ⟨0x3ff0000000000000⟩, .closing, .number ⟨0x4000000000000000⟩] =
          .error (.malformed (.leftOver 3)) ∧
      evaluate [.opening, .opening, .opening, .closing, .number ⟨0x3ff0000000000000⟩, .closing,
        .closing, .operator .add] = .error (.malformed (.missingOperand .add)) := by
  have inner : evaluate [.opening, .closing, .number ⟨0x3ff0000000000000⟩] =
      .ok ⟨0x3ff0000000000000⟩ := by decide
  have outer : evaluate [.number ⟨0x3ff0000000000000⟩] = .ok ⟨0x3ff0000000000000⟩ := by decide
  refine ⟨inner, ?_, ?_⟩
  · exact (evaluate_replaced.1 [.number ⟨0x4000000000000000⟩] _ [.number ⟨0x4000000000000000⟩] _
      inner).trans (by decide)
  · have first := Simplifies.group [.opening] [.closing, .operator .add] inner
    have second := Simplifies.group [] [.operator .add] outer
    exact (evaluate_replaced.2 _ _ (.tail (.single first) second)).trans (by decide)

end Token

end Reckoner
