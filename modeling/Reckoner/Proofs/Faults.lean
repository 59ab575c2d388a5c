import Reckoner.Proofs.Acceptance

/-!
# Where faults come from

Reading a text has two faults of its own, a character that does not belong and a run that is no
number (`Fault.Lexical`), and evaluating a list of tokens has others (`Fault.Numeric`). No fault is
of both kinds, and none of either is about a variable or a context; so a fault shows which step met
it.

* `Lexeme.lexical_of_ofText`: reading fails with a lexical fault only.
* `Postfix.perm_of_ofTokens`: a postfix order is made of the tokens without the parentheses.
* `Token.numeric_of_evaluate`: evaluating fails with a numeric fault only.
-/

namespace Reckoner

/-- The faults of reading a text. -/
inductive Fault.Lexical : Fault → Prop
  | invalidCharacter (c : Char) (position : Nat) : Lexical (.invalidCharacter c position)
  | invalidNumber (run : String) : Lexical (.malformed (.invalidNumber run))

/-- The faults of evaluating tokens. -/
inductive Fault.Numeric : Fault → Prop
  | mismatchedParentheses : Numeric .mismatchedParentheses
  | missingOperand (o : Operator) : Numeric (.malformed (.missingOperand o))
  | empty : Numeric (.malformed .empty)
  | leftOver (count : Nat) : Numeric (.malformed (.leftOver count))
  | divisionByZero : Numeric .divisionByZero
  | nonFiniteResult : Numeric .nonFiniteResult

/-! ## 1. Reading -/

namespace Lexeme

theorem lexical_of_cut {d : Dialect} {done : List Lexeme} {position : Nat} {cs : List Char}
    {fault : Fault} (h : cut d done position cs = .error fault) : fault.Lexical := by
  fun_induction cut d done position cs with
  | case1 => cases h
  | case2 _ _ _ _ _ ih => exact ih h
  | case3 _ _ _ _ _ _ _ ih => exact ih h
  | case4 _ _ _ _ _ _ _ _ ih => exact ih h
  | case5 =>
    cases h
    exact .invalidNumber _
  | case6 =>
    cases h
    exact .invalidCharacter _ _
  | case7 _ _ _ _ _ _ _ _ _ _ _ _ _ ih => exact ih h
  | case8 _ _ _ _ _ _ _ _ _ _ ih => exact ih h
  | case9 =>
    cases h
    exact .invalidCharacter _ _

/-- **A text that cannot be read has a lexical fault.** -/
theorem lexical_of_ofText {d : Dialect} {text : String} {fault : Fault}
    (h : ofText d text = .error fault) : fault.Lexical := by
  unfold ofText at h
  split at h
  · cases h
    exact .invalidCharacter _ _
  · exact lexical_of_cut h

end Lexeme

namespace Postfix

/-! ## 2. Into postfix order -/

/-- Whether a token is kept in postfix order. -/
def isKept : Token → Bool
  | .number _ | .operator _ => true
  | .opening | .closing => false

/-- The tokens that wait on a stack. -/
def waitingTokens : List Waiting → List Token
  | [] => []
  | .operator o :: stack => .operator o :: waitingTokens stack
  | .opening :: stack => waitingTokens stack

theorem perm_release (o : Operator) (out : List Token) (stack : List Waiting) :
    ((release o out stack).1 ++ waitingTokens (release o out stack).2).Perm
      (out ++ waitingTokens stack) := by
  fun_induction release o out stack with
  | case1 => exact .refl _
  | case2 out top stack _ ih => exact ih.trans List.perm_middle.symm
  | case3 => exact .refl _

theorem perm_close {out out' : List Token} {stack stack' : List Waiting}
    (h : close out stack = .ok (out', stack')) :
    (out' ++ waitingTokens stack').Perm (out ++ waitingTokens stack) := by
  fun_induction close out stack with
  | case1 out top stack ih => exact (ih h).trans List.perm_middle.symm
  | case2 => cases h; exact .refl _
  | case3 => cases h

theorem perm_finish {out order : List Token} {stack : List Waiting}
    (h : finish out stack = .ok order) : order.Perm (out ++ waitingTokens stack) := by
  fun_induction finish out stack with
  | case1 out top stack ih => exact (ih h).trans List.perm_middle.symm
  | case2 => cases h
  | case3 out => cases h; simp [waitingTokens, List.reverse_perm]

theorem perm_arrange {out order ts : List Token} {stack : List Waiting}
    (h : arrange out stack ts = .ok order) :
    order.Perm (out ++ waitingTokens stack ++ ts.filter isKept) := by
  fun_induction arrange out stack ts with
  | case1 out stack => simpa using perm_finish h
  | case2 out stack x ts ih =>
    refine (ih h).trans ?_
    rw [List.filter_cons_of_pos rfl]
    exact List.perm_middle.symm
  | case3 out stack o ts out' stack' released ih =>
    -- the operator goes on the stack, behind what it releases
    have moved := perm_release o out stack
    rw [released] at moved
    rw [List.filter_cons_of_pos rfl]
    refine ((ih h).trans ?_).trans (moved.append_right _)
    rw [List.append_assoc, List.append_assoc]
    exact List.perm_middle.symm.append_left out'
  | case4 out stack ts ih => exact ih h
  | case5 out stack ts out' stack' closed ih =>
    exact (ih h).trans ((perm_close closed).append_right _)
  | case6 => cases h

/-- **A postfix order is made of the tokens without the parentheses.** -/
theorem perm_of_ofTokens {order ts : List Token} (h : ofTokens ts = .ok order) :
    order.Perm (ts.filter isKept) :=
  perm_arrange h

/-! ## 3. Evaluating -/

section Numeric

variable {fault : Fault}

theorem close_error {out : List Token} {stack : List Waiting} (h : close out stack = .error fault) :
    fault = .mismatchedParentheses := by
  rcases close_ok out stack with ⟨-, he⟩ | ⟨_, _, hc, -⟩
  · cases h.symm.trans he
    rfl
  · cases h.symm.trans hc

theorem finish_error {out : List Token} {stack : List Waiting}
    (h : finish out stack = .error fault) : fault = .mismatchedParentheses := by
  fun_induction finish out stack with
  | case1 out top stack ih => exact ih h
  | case2 => cases h; rfl
  | case3 => cases h

/-- Only parentheses can keep tokens from a postfix order. -/
theorem arrange_error {out : List Token} {stack : List Waiting} {ts : List Token}
    (h : arrange out stack ts = .error fault) : fault = .mismatchedParentheses := by
  fun_induction arrange out stack ts with
  | case1 out stack => exact finish_error h
  | case2 out stack x ts ih => exact ih h
  | case3 out stack o ts out' stack' _ ih => exact ih h
  | case4 out stack ts ih => exact ih h
  | case5 out stack ts out' stack' _ ih => exact ih h
  | case6 out stack ts fault' closed =>
    cases h
    exact close_error closed

/-- **A token that no stack of numbers takes, or not every one**, and its fault. -/
inductive Refused : Token → Fault → Prop
  | opening : Refused .opening (.malformed .opening)
  | closing : Refused .closing (.malformed .closing)
  | missingOperand (o : Operator) : Refused (.operator o) (.malformed (.missingOperand o))
  | divisionByZero : Refused (.operator .divide) .divisionByZero

theorem refused_of_step {stack : List Binary64} {t : Token} (h : step stack t = .error fault) :
    Refused t fault := by
  cases t with
  | number x => cases h
  | opening => cases h; exact .opening
  | closing => cases h; exact .closing
  | operator o =>
    match stack with
    | [] | [_] => cases h; exact .missingOperand o
    | right :: left :: stack =>
      have applied := map_eq_error h
      cases o with
      | add | subtract | multiply => cases applied
      | divide =>
        simp only [apply] at applied
        split at applied
        · cases applied; exact .divisionByZero
        · cases applied

/-- A run that fails was refused one of its tokens. -/
theorem refused_of_foldlM {order : List Token} {stack : List Binary64}
    (h : order.foldlM step stack = .error fault) : ∃ t ∈ order, Refused t fault := by
  obtain ⟨t, ht, stack', fails⟩ := exists_of_foldlM_error h
  exact ⟨t, ht, refused_of_step fails⟩

theorem numeric_of_refused {t : Token} (kept : isKept t = true) (h : Refused t fault) :
    fault.Numeric := by
  cases h with
  | opening => cases kept
  | closing => cases kept
  | missingOperand o => exact .missingOperand o
  | divisionByZero => exact .divisionByZero

theorem numeric_of_conclude {stack : List Binary64} (h : conclude stack = .error fault) :
    fault.Numeric := by
  unfold conclude at h
  split at h
  · cases h
    exact .empty
  · split at h
    · cases h
    · cases h
      exact .nonFiniteResult
  · cases h
    exact .leftOver _

/-- A list without parentheses that has no value has a numeric fault. -/
theorem numeric_of_value {order : List Token} (kept : ∀ t ∈ order, isKept t = true)
    (h : value order = .error fault) : fault.Numeric := by
  unfold value at h
  cases hf : order.foldlM step [] with
  | error fault' =>
    rw [hf] at h
    cases h
    obtain ⟨t, ht, refused⟩ := refused_of_foldlM hf
    exact numeric_of_refused (kept t ht) refused
  | ok stack =>
    rw [hf] at h
    exact numeric_of_conclude h

/-- **A postfix order holds no parentheses**, so its value fails without meeting one. -/
theorem numeric_of_ofTokens {ts order : List Token} (ordered : ofTokens ts = .ok order)
    (h : value order = .error fault) : fault.Numeric := by
  refine numeric_of_value (fun t ht => ?_) h
  have kept : t ∈ ts.filter isKept := (perm_of_ofTokens ordered).mem_iff.mp ht
  exact (List.mem_filter.mp kept).2

end Numeric

end Postfix

/-- **Tokens without a value have a numeric fault.** -/
theorem Token.numeric_of_evaluate {ts : List Token} {fault : Fault}
    (h : evaluate ts = .error fault) : fault.Numeric := by
  unfold evaluate at h
  cases ho : Postfix.ofTokens ts with
  | error fault' =>
    rw [ho] at h
    cases h
    rw [Postfix.arrange_error ho]
    exact .mismatchedParentheses
  | ok order =>
    rw [ho] at h
    exact Postfix.numeric_of_ofTokens ho h

end Reckoner
