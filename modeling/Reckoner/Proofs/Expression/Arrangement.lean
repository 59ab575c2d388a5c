import Reckoner.Proofs.Faults

/-!
# What postfix order keeps

Bringing tokens into postfix order looks at nothing but parentheses, and moves nothing but operators.

* `Matched`: the parentheses of a list match, said by counting them in its beginnings. The conversion
  never counts: how many are open is how many wait on the stack, and `balanced` follows that number
  from token to token. `balanced_iff` ties the two.
* `Rearranged`: what is kept. No parenthesis is left, each operator is there as often as before, and
  the numbers are those of the list in the order of writing. For the last one, operators move from the
  stack to the output and numbers go there at once (`numbersOf_arrange`).
* **`Postfix.ofTokens_rearranges`**: a list is brought into postfix order exactly if its parentheses
  match, and then these are kept.
-/

namespace Reckoner

/-! ## 1. Matching parentheses -/

/-- **The parentheses of a list match**: no beginning closes more of them than it opens, and all that
are opened are closed. -/
structure Matched (ts : List Token) : Prop where
  beginnings : ∀ before, before <+: ts → before.count .closing ≤ before.count .opening
  all : ts.count .closing = ts.count .opening

/-- The beginnings of a list are the empty one and those that start with its first token. -/
theorem forall_beginning_cons {P : List Token → Prop} {t : Token} {ts : List Token} :
    (∀ before, before <+: t :: ts → P before) ↔ P [] ∧ ∀ before, before <+: ts → P (t :: before) := by
  constructor
  · intro h
    exact ⟨h [] List.nil_prefix, fun before hb => h _ (List.prefix_cons_iff.mpr (.inr ⟨_, rfl, hb⟩))⟩
  · rintro ⟨empty, longer⟩ before hb
    rcases List.prefix_cons_iff.mp hb with rfl | ⟨rest, rfl, hrest⟩
    · exact empty
    · exact longer rest hrest

/-- **Following the depth is counting in all beginnings**, when `depth` parentheses are open
already. -/
theorem balanced_iff : ∀ {ts : List Token} {depth : Nat}, balanced depth ts = true ↔
    (∀ before, before <+: ts → before.count .closing ≤ depth + before.count .opening) ∧
      ts.count .closing = depth + ts.count .opening
  | [], depth => by
      simp only [balanced, beq_iff_eq, List.prefix_nil, forall_eq, List.count_nil, Nat.zero_le,
        true_and, Nat.add_zero]
      exact eq_comm
  | .opening :: ts, depth => by
      rw [balanced, balanced_iff, forall_beginning_cons]
      simp only [List.count_nil, List.count_cons_self, List.count_cons_of_ne, ne_eq, reduceCtorEq,
        not_false_eq_true, Nat.add_right_comm _ 1, ← Nat.add_assoc, Nat.zero_le, true_and]
  | .closing :: ts, 0 => by
      rw [balanced, forall_beginning_cons]
      refine iff_of_false Bool.false_ne_true fun h => ?_
      have first := h.1.2 [] List.nil_prefix
      simp at first
  | .closing :: ts, depth + 1 => by
      rw [balanced, balanced_iff, forall_beginning_cons]
      simp only [List.count_nil, List.count_cons_self, List.count_cons_of_ne, ne_eq, reduceCtorEq,
        not_false_eq_true, Nat.add_right_comm _ 1, Nat.add_le_add_iff_right, Nat.add_right_cancel_iff,
        Nat.zero_le, true_and]
  | .number x :: ts, depth => by
      rw [balanced, balanced_iff, forall_beginning_cons]
      simp
  | .operator o :: ts, depth => by
      rw [balanced, balanced_iff, forall_beginning_cons]
      simp

/-- A list whose parentheses match is one that `balanced` accepts. -/
theorem matched_iff {ts : List Token} : Matched ts ↔ balanced 0 ts = true := by
  rw [balanced_iff]
  simp only [Nat.zero_add]
  exact ⟨fun h => ⟨h.beginnings, h.all⟩, fun h => ⟨h.1, h.2⟩⟩

/-! ## 2. Numbers -/

/-- The number that a token is. -/
def Token.number? : Token → Option Binary64
  | .number x => some x
  | _ => none

/-- The numbers of a list, in their order. -/
def numbersOf (ts : List Token) : List Binary64 :=
  ts.filterMap Token.number?

@[simp] theorem numbersOf_nil : numbersOf [] = [] := rfl

@[simp] theorem numbersOf_number (x : Binary64) (ts : List Token) :
    numbersOf (.number x :: ts) = x :: numbersOf ts := rfl

@[simp] theorem numbersOf_operator (o : Operator) (ts : List Token) :
    numbersOf (.operator o :: ts) = numbersOf ts := rfl

@[simp] theorem numbersOf_opening (ts : List Token) :
    numbersOf (.opening :: ts) = numbersOf ts := rfl

@[simp] theorem numbersOf_closing (ts : List Token) :
    numbersOf (.closing :: ts) = numbersOf ts := rfl

@[simp] theorem numbersOf_append (ts us : List Token) :
    numbersOf (ts ++ us) = numbersOf ts ++ numbersOf us :=
  List.filterMap_append

namespace Postfix

/-- What an operator releases are operators. -/
theorem numbersOf_release (o : Operator) (out : List Token) (stack : List Waiting) :
    numbersOf (release o out stack).1 = numbersOf out := by
  fun_induction release o out stack with
  | case1 => rfl
  | case2 out top stack _ ih => exact ih
  | case3 => rfl

/-- What a closing parenthesis releases are operators. -/
theorem numbersOf_close {out out' : List Token} {stack stack' : List Waiting}
    (h : close out stack = .ok (out', stack')) : numbersOf out' = numbersOf out := by
  fun_induction close out stack with
  | case1 out top stack ih => exact ih h
  | case2 => cases h; rfl
  | case3 => cases h

/-- What the end releases are operators. -/
theorem numbersOf_finish {out order : List Token} {stack : List Waiting}
    (h : finish out stack = .ok order) : numbersOf order = (numbersOf out).reverse := by
  fun_induction finish out stack with
  | case1 out top stack ih => exact ih h
  | case2 => cases h
  | case3 out => cases h; exact List.filterMap_reverse

/-- **Numbers go to the output in their order**, behind those that are there. -/
theorem numbersOf_arrange {out order ts : List Token} {stack : List Waiting}
    (h : arrange out stack ts = .ok order) :
    numbersOf order = (numbersOf out).reverse ++ numbersOf ts := by
  fun_induction arrange out stack ts with
  | case1 out stack => simpa using numbersOf_finish h
  | case2 out stack x ts ih => simpa using ih h
  | case3 out stack o ts out' stack' released ih =>
    have kept := numbersOf_release o out stack
    rw [released] at kept
    rw [ih h, kept, numbersOf_operator]
  | case4 out stack ts ih => exact ih h
  | case5 out stack ts out' stack' closed ih => rw [ih h, numbersOf_close closed, numbersOf_closing]
  | case6 => cases h

end Postfix

/-! ## 3. Rearranging -/

/-- **What postfix order keeps of a list**: no parenthesis, the numbers in their order, and each
operator as often as it is there. -/
structure Rearranged (ts order : List Token) : Prop where
  parentheses : .opening ∉ order ∧ .closing ∉ order
  numbers : numbersOf order = numbersOf ts
  operators : ∀ o, order.count (.operator o) = ts.count (.operator o)

namespace Postfix

/-- A list in postfix order is the list it was made from, rearranged. -/
theorem rearranged_of_ofTokens {ts order : List Token} (h : ofTokens ts = .ok order) :
    Rearranged ts order := by
  have perm := perm_of_ofTokens h
  refine ⟨⟨fun left => ?_, fun left => ?_⟩, numbersOf_arrange h, fun o => ?_⟩
  · exact Bool.false_ne_true (List.mem_filter.mp (perm.mem_iff.mp left)).2
  · exact Bool.false_ne_true (List.mem_filter.mp (perm.mem_iff.mp left)).2
  · rw [perm.count_eq, List.count_filter rfl]

/-- **Bringing a list into postfix order only moves operators, and fails for parentheses only**: there
is a postfix order exactly if the parentheses match, and it is the list without them, with its numbers
in their order and its operators elsewhere; else the fault is that of the parentheses. -/
theorem ofTokens_rearranges (ts : List Token) :
    ((∃ order, ofTokens ts = .ok order) ↔ Matched ts) ∧
      (∀ order, ofTokens ts = .ok order → Rearranged ts order) ∧
      ∀ fault, ofTokens ts = .error fault ↔ ¬ Matched ts ∧ fault = .mismatchedParentheses := by
  have ordered : (∃ order, ofTokens ts = .ok order) ↔ Matched ts :=
    ofTokens_ok_iff.trans matched_iff.symm
  refine ⟨ordered, fun _ => rearranged_of_ofTokens, fun fault => ?_⟩
  rw [← ordered]
  constructor
  · intro fails
    refine ⟨fun ⟨order, h⟩ => ?_, arrange_error fails⟩
    cases h.symm.trans fails
  · rintro ⟨unordered, rfl⟩
    cases h : ofTokens ts with
    | ok order => exact absurd ⟨order, h⟩ unordered
    | error fault => rw [arrange_error h]

/-- `(5 + 5) * 0` is rearranged into `5 5 + 0 *`. -/
theorem rearranged_product :
    ofTokens [.opening, .number ⟨0x4014000000000000⟩, .operator .add, .number ⟨0x4014000000000000⟩,
        .closing, .operator .multiply, .number ⟨0⟩] =
      .ok [.number ⟨0x4014000000000000⟩, .number ⟨0x4014000000000000⟩, .operator .add, .number ⟨0⟩,
        .operator .multiply] ∧
      Rearranged [.opening, .number ⟨0x4014000000000000⟩, .operator .add,
          .number ⟨0x4014000000000000⟩, .closing, .operator .multiply, .number ⟨0⟩]
        [.number ⟨0x4014000000000000⟩, .number ⟨0x4014000000000000⟩, .operator .add, .number ⟨0⟩,
          .operator .multiply] :=
  ⟨rfl, (ofTokens_rearranges _).2.1 _ rfl⟩

end Postfix

end Reckoner
