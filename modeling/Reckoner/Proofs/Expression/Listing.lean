import Reckoner.Proofs.Expression.Arrangement

/-!
# Which lists are in postfix order

A list is in postfix order if it is the listing of a binary tree, which has each operator behind its
operands. `Postfix.value` does not look for a tree; it takes the tokens one by one, also those of a
list that has none.

* A tree is what remains of an expression without its parentheses and levels (`Parse.tree`), and each
  tree is that of an expression (`Tree.tree_parse`). So what holds of the postfix order of expressions
  holds of listings.
* **A list is the listing of one tree at most** (`Tree.listing_injective`): a list ends in one only,
  whatever stands before it.
* A run takes numbers to its stack and an operator takes one off, so the numbers that are left can be
  counted in the tokens (`length_foldlM`); and it fails at a token that it refuses
  (`refused_of_foldlM`).

Together these say what a list comes to, with a tree and without (`Postfix.value_listing`).
-/

namespace Reckoner

/-- What an operator computes of two numbers. -/
def Operator.compute : Operator → Binary64 → Binary64 → Binary64
  | .add, left, right => left + right
  | .subtract, left, right => left - right
  | .multiply, left, right => left * right
  | .divide, left, right => left / right

namespace Postfix

/-! ## 1. Binary trees -/

/-- A binary tree with operators at its nodes and numbers at its leaves. -/
inductive Tree
  | number (x : Binary64)
  | node (o : Operator) (left right : Tree)
  deriving DecidableEq, Repr

namespace Tree

/-- The postfix listing of a tree. -/
def listing : Tree → List Token
  | number x => [.number x]
  | node o left right => left.listing ++ right.listing ++ [.operator o]

/-- The computed value of a tree. It may be infinite or no number. -/
def value : Tree → Binary64
  | number x => x
  | node o left right => o.compute left.value right.value

/-- What a tree divides by: the right operands of its division nodes. -/
def divisors : Tree → List Tree
  | number _ => []
  | node .divide left right => left.divisors ++ right.divisors ++ [right]
  | node _ left right => left.divisors ++ right.divisors

/-- Whether some division node has a right operand that comes out as zero. -/
def dividesByZero (t : Tree) : Bool :=
  t.divisors.any fun divisor => divisor.value.isZero

/-- **A list ends in the listing of one tree at most**, whatever stands before it. -/
theorem append_listing_inj : ∀ {s t : Tree} {before before' : List Token},
    before ++ s.listing = before' ++ t.listing → before = before' ∧ s = t
  | number x, number y, _, _, same => by
      obtain ⟨rfl, last⟩ := List.append_inj' same rfl
      cases last
      exact ⟨rfl, rfl⟩
  | number x, node o left right, before, before', same => by
      simp only [listing, ← List.append_assoc] at same
      cases (List.append_inj' same rfl).2
  | node o left right, number x, before, before', same => by
      simp only [listing, ← List.append_assoc] at same
      cases (List.append_inj' same rfl).2
  | node o left right, node o' left' right', before, before', same => by
      simp only [listing, ← List.append_assoc] at same
      obtain ⟨operands, last⟩ := List.append_inj' same rfl
      cases last
      -- the right operand ends the rest, and then the left one does
      obtain ⟨first, rfl⟩ := append_listing_inj operands
      obtain ⟨rfl, rfl⟩ := append_listing_inj first
      exact ⟨rfl, rfl⟩

/-- **A list is the listing of one tree at most.** -/
theorem listing_injective : Function.Injective listing :=
  fun _ _ same => (append_listing_inj (congrArg ([] ++ ·) same)).2

end Tree

end Postfix

/-! ## 2. Trees and expressions -/

namespace Parse

open Postfix (Tree)

variable {l : Level}

/-- The binary tree of a parse tree. -/
def tree : {l : Level} → Parse l → Tree
  | _, number x => .number x
  | _, group e => e.tree
  | _, factor f => f.tree
  | _, multiply t f => .node .multiply t.tree f.tree
  | _, divide t f => .node .divide t.tree f.tree
  | _, term t => t.tree
  | _, add e t => .node .add e.tree t.tree
  | _, subtract e t => .node .subtract e.tree t.tree

theorem listing_tree (t : Parse l) : t.tree.listing = t.listing := by
  induction t with
  | number x => rfl
  | group e ih | factor f ih | term t ih => exact ih
  | multiply t f iht ihf | divide t f iht ihf | add t f iht ihf | subtract t f iht ihf =>
    simp only [tree, listing, Tree.listing, iht, ihf]

theorem value_tree (t : Parse l) : t.tree.value = t.value := by
  induction t with
  | number x => rfl
  | group e ih | factor f ih | term t ih => exact ih
  | multiply t f iht ihf | divide t f iht ihf | add t f iht ihf | subtract t f iht ihf =>
    simp only [tree, value, Tree.value, Operator.compute, iht, ihf]

theorem divisors_tree (t : Parse l) : t.tree.divisors = t.divisors.map tree := by
  induction t with
  | number x => rfl
  | group e ih | factor f ih | term t ih => exact ih
  | multiply t f iht ihf | divide t f iht ihf | add t f iht ihf | subtract t f iht ihf =>
    simp only [tree, divisors, Tree.divisors, List.map_append, List.map_cons, List.map_nil, iht, ihf]

theorem dividesByZero_tree (t : Parse l) : t.tree.dividesByZero = t.dividesByZero := by
  simp only [Tree.dividesByZero, dividesByZero, divisors_tree, List.any_map, Function.comp_def,
    value_tree]

theorem tree_combine (left : Parse .expression) (o : Operator) (right : Parse .expression) :
    (left.combine o right).tree = .node o left.tree right.tree := by
  cases o <;> rfl

end Parse

namespace Postfix

/-- An expression that has a given tree: an operand stands in parentheses where it has to. -/
def Tree.parse : Tree → Parse .expression
  | number x => .term (.factor (.number x))
  | node o left right => left.parse.combine o right.parse

/-- **Each tree is that of an expression.** -/
theorem Tree.tree_parse (t : Tree) : t.parse.tree = t := by
  induction t with
  | number x => rfl
  | node o left right ihl ihr => rw [parse, Parse.tree_combine, ihl, ihr]

/-- **A listing comes to the value of its tree**, unless the tree divides by zero. -/
theorem value_of_tree (t : Tree) : Postfix.value t.listing =
    if t.dividesByZero then .error .divisionByZero
    else if t.value.isFinite then .ok t.value
    else .error .nonFiniteResult := by
  rw [← t.tree_parse, Parse.listing_tree, Parse.value_tree, Parse.dividesByZero_tree]
  exact value_of_parse t.parse

/-- A run that leaves one number has read a listing. -/
theorem exists_tree {ts : List Token} {x : Binary64} (h : ts.foldlM step [] = .ok [x]) :
    ∃ t : Tree, t.listing = ts := by
  obtain ⟨e, listed, -⟩ := listing_of_foldlM h
  exact ⟨e.tree, e.listing_tree.trans listed⟩

end Postfix

/-! ## 3. What a run leaves -/

/-- The operator that a token is. -/
def Token.operator? : Token → Option Operator
  | .operator o => some o
  | _ => none

/-- The operators of a list, in their order. -/
def operatorsOf (ts : List Token) : List Operator :=
  ts.filterMap Token.operator?

@[simp] theorem operatorsOf_append (ts us : List Token) :
    operatorsOf (ts ++ us) = operatorsOf ts ++ operatorsOf us :=
  List.filterMap_append

namespace Postfix

/-- A number adds one to the stack, and an operator puts one in the place of two. -/
theorem length_step {stack stack' : List Binary64} {t : Token} (h : step stack t = .ok stack') :
    stack'.length + (operatorsOf [t]).length = stack.length + (numbersOf [t]).length := by
  cases t with
  | number x => cases h; rfl
  | opening => cases h
  | closing => cases h
  | operator o =>
    match stack, h with
    | right :: left :: rest, h =>
      obtain ⟨x, -, rfl⟩ := map_eq_ok h
      rfl

/-- **Each number that is left was there before or was read, and no operator took it.** -/
theorem length_foldlM : ∀ {ts : List Token} {stack stack' : List Binary64},
    ts.foldlM step stack = .ok stack' →
      stack'.length + (operatorsOf ts).length = stack.length + (numbersOf ts).length
  | [], stack, stack', h => by
      cases h
      rfl
  | t :: ts, stack, stack', h => by
      rw [List.foldlM_cons] at h
      obtain ⟨next, first, others⟩ := bind_eq_ok h
      have one := length_step first
      have rest := length_foldlM others
      rw [← List.singleton_append, operatorsOf_append, numbersOf_append, List.length_append,
        List.length_append]
      omega

/-! ## 4. What a list comes to -/

/-- A list without a tree has no value, finite or not. -/
theorem error_of_no_tree {ts : List Token} (h : ¬ ∃ t : Tree, t.listing = ts) :
    value ts = .error .divisionByZero ∨ ∃ how, value ts = .error (.malformed how) := by
  unfold value
  cases run : ts.foldlM step [] with
  | error fault =>
    obtain ⟨t, -, refused⟩ := refused_of_foldlM run
    cases refused with
    | divisionByZero => exact .inl rfl
    | opening | closing | missingOperand => exact .inr ⟨_, rfl⟩
  | ok stack =>
    match stack with
    | [] => exact .inr ⟨_, rfl⟩
    | [x] => exact absurd (exists_tree run) h
    | _ :: _ :: _ => exact .inr ⟨_, rfl⟩

/-- What is left over are the numbers that no operator took. -/
theorem leftOver_count {ts : List Token} {count : Nat}
    (h : value ts = .error (.malformed (.leftOver count))) :
    (numbersOf ts).length = count + (operatorsOf ts).length ∧ 2 ≤ count := by
  unfold value at h
  rcases bind_eq_error h with run | ⟨stack, run, left⟩
  · -- no token is refused for what is left over
    obtain ⟨t, -, refused⟩ := refused_of_foldlM run
    cases refused
  · have counted := length_foldlM run
    match stack, left with
    | [x], left =>
      simp only [conclude] at left
      split at left <;> cases left
    | _ :: _ :: rest, left =>
      cases left
      exact ⟨by simpa using counted.symm, Nat.le_add_left 2 rest.length⟩

/-- **The value of a list in postfix order, and the faults of any other.** A list is the listing of one
tree at most. If there is one, the list comes to a division by zero where the tree divides by zero,
else to the computed value, which has to be finite. If there is none, it is malformed, or a division
by zero came before that showed. Where values are left over, they are counted as the numbers that no
operator took, and there are at least two. -/
theorem value_listing (ts : List Token) :
    (∀ s t : Tree, s.listing = ts → t.listing = ts → s = t) ∧
      (∀ t : Tree, t.listing = ts → value ts =
        if t.dividesByZero then .error .divisionByZero
        else if t.value.isFinite then .ok t.value
        else .error .nonFiniteResult) ∧
      ((¬ ∃ t : Tree, t.listing = ts) →
        value ts = .error .divisionByZero ∨ ∃ how, value ts = .error (.malformed how)) ∧
      ∀ count, value ts = .error (.malformed (.leftOver count)) →
        (numbersOf ts).length = count + (operatorsOf ts).length ∧ 2 ≤ count := by
  refine ⟨fun s t listed listed' => ?_, ?_, error_of_no_tree, fun _ => leftOver_count⟩
  · exact Tree.listing_injective (listed.trans listed'.symm)
  · rintro t rfl
    exact value_of_tree t

/-- The list `5 5 0 -`, in which an operator is missing. -/
def unfinished : List Token :=
  [.number ⟨0x4014000000000000⟩, .number ⟨0x4014000000000000⟩, .number ⟨0⟩, .operator .subtract]

/-- `5 0 /` is the listing of a division by zero, and `5 5 0 -` leaves two values. -/
theorem value_listing_divided :
    value [.number ⟨0x4014000000000000⟩, .number ⟨0⟩, .operator .divide] = .error .divisionByZero ∧
      value unfinished = .error (.malformed (.leftOver 2)) ∧
      (numbersOf unfinished).length = 2 + (operatorsOf unfinished).length := by
  have divides := (value_listing _).2.1
    (.node .divide (.number ⟨0x4014000000000000⟩) (.number ⟨0⟩)) rfl
  have left : value unfinished = .error (.malformed (.leftOver 2)) := by decide
  exact ⟨divides.trans (by decide), left, ((value_listing unfinished).2.2.2 2 left).1⟩

end Postfix

end Reckoner
