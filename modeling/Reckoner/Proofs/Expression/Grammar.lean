import Reckoner.Token

/-!
# The grammar of expressions

An expression is a sum of terms, a term a product of factors, and a factor is a number or an
expression in parentheses:

    E → T | E + T | E - T        T → F | T * F | T / F        F → number | ( E )

`Parse l` are the parse trees of one of the three symbols. A tree yields its tokens in the order of
writing (`tokens`) and in postfix order (`listing`), and it has a value (`value`), which is found from
the values of its parts and knows nothing of a stack. The grammar says nothing of how tightly an
operator binds: that is in the shape of the rules.

Which token lists the grammar derives can be read off from left to right (`derivable_iff`): operands
and operators alternate, and the parentheses match.
-/

namespace Reckoner

/-- The symbols of the grammar. -/
inductive Level
  | expression
  | term
  | factor
  deriving DecidableEq, Repr

/-- The parse trees of a symbol. -/
inductive Parse : Level → Type
  | number (x : Binary64) : Parse .factor
  | group (e : Parse .expression) : Parse .factor
  | factor (f : Parse .factor) : Parse .term
  | multiply (t : Parse .term) (f : Parse .factor) : Parse .term
  | divide (t : Parse .term) (f : Parse .factor) : Parse .term
  | term (t : Parse .term) : Parse .expression
  | add (e : Parse .expression) (t : Parse .term) : Parse .expression
  | subtract (e : Parse .expression) (t : Parse .term) : Parse .expression

namespace Parse

variable {l : Level}

/-! ## 1. What a tree yields -/

/-- The tokens of a tree, as an expression is written. -/
def tokens : {l : Level} → Parse l → List Token
  | _, number x => [.number x]
  | _, group e => .opening :: e.tokens ++ [.closing]
  | _, factor f => f.tokens
  | _, multiply t f => t.tokens ++ .operator .multiply :: f.tokens
  | _, divide t f => t.tokens ++ .operator .divide :: f.tokens
  | _, term t => t.tokens
  | _, add e t => e.tokens ++ .operator .add :: t.tokens
  | _, subtract e t => e.tokens ++ .operator .subtract :: t.tokens

/-- The numbers and operators of a tree, each operator behind its operands. -/
def listing : {l : Level} → Parse l → List Token
  | _, number x => [.number x]
  | _, group e => e.listing
  | _, factor f => f.listing
  | _, multiply t f => t.listing ++ f.listing ++ [.operator .multiply]
  | _, divide t f => t.listing ++ f.listing ++ [.operator .divide]
  | _, term t => t.listing
  | _, add e t => e.listing ++ t.listing ++ [.operator .add]
  | _, subtract e t => e.listing ++ t.listing ++ [.operator .subtract]

/-- The computed value of a tree. It may be infinite or no number. -/
def value : {l : Level} → Parse l → Binary64
  | _, number x => x
  | _, group e => e.value
  | _, factor f => f.value
  | _, multiply t f => t.value * f.value
  | _, divide t f => t.value / f.value
  | _, term t => t.value
  | _, add e t => e.value + t.value
  | _, subtract e t => e.value - t.value

/-- What a tree divides by: the right operands of its divisions. -/
def divisors : {l : Level} → Parse l → List (Parse .factor)
  | _, number _ => []
  | _, group e => e.divisors
  | _, factor f => f.divisors
  | _, multiply t f => t.divisors ++ f.divisors
  | _, divide t f => t.divisors ++ f.divisors ++ [f]
  | _, term t => t.divisors
  | _, add e t => e.divisors ++ t.divisors
  | _, subtract e t => e.divisors ++ t.divisors

/-- Whether some division of a tree has a right operand that comes out as zero. -/
def dividesByZero (t : Parse l) : Bool :=
  t.divisors.any fun f => f.value.isZero

end Parse

/-- The grammar derives a token list as an expression. -/
def Derivable (ts : List Token) : Prop :=
  ∃ e : Parse .expression, e.tokens = ts

/-! ## 2. Alternation and balance -/

/-- What may come next in an expression: something that starts an operand, or something that follows
one. -/
inductive Place
  | operand
  | operator
  deriving DecidableEq, Repr

/-- Whether operands and operators alternate, from a place on. A group counts as an operand. -/
def alternates : Place → List Token → Bool
  | .operand, .number _ :: ts => alternates .operator ts
  | .operand, .opening :: ts => alternates .operand ts
  | .operator, .operator _ :: ts => alternates .operand ts
  | .operator, .closing :: ts => alternates .operator ts
  | .operator, [] => true
  | _, _ => false

/-- Whether the parentheses match, when `depth` of them are open. -/
def balanced : Nat → List Token → Bool
  | depth, .opening :: ts => balanced (depth + 1) ts
  | depth + 1, .closing :: ts => balanced depth ts
  | 0, .closing :: _ => false
  | depth, .number _ :: ts => balanced depth ts
  | depth, .operator _ :: ts => balanced depth ts
  | depth, [] => depth == 0

namespace Parse

variable {l : Level}

/-- A tree stands where an operand may, and is followed by what may follow one. -/
theorem alternates_tokens (t : Parse l) (ts : List Token) :
    alternates .operand (t.tokens ++ ts) = alternates .operator ts := by
  induction t generalizing ts with
  | number x => rfl
  | group e ih =>
    simp only [tokens, List.cons_append, List.append_assoc, List.nil_append]
    exact ih (.closing :: ts)
  | factor f ih => exact ih ts
  | term t ih => exact ih ts
  | multiply t f iht ihf | divide t f iht ihf | add t f iht ihf | subtract t f iht ihf =>
    simp only [tokens, List.append_assoc, List.cons_append]
    rw [iht]
    exact ihf ts

/-- The parentheses of a tree match. -/
theorem balanced_tokens (t : Parse l) (depth : Nat) (ts : List Token) :
    balanced depth (t.tokens ++ ts) = balanced depth ts := by
  induction t generalizing depth ts with
  | number x => cases depth <;> rfl
  | group e ih =>
    simp only [tokens, List.cons_append, List.append_assoc, List.nil_append]
    show balanced (depth + 1) (e.tokens ++ .closing :: ts) = _
    rw [ih]
    rfl
  | factor f ih => exact ih depth ts
  | term t ih => exact ih depth ts
  | multiply t f iht ihf | divide t f iht ihf | add t f iht ihf | subtract t f iht ihf =>
    simp only [tokens, List.append_assoc, List.cons_append]
    rw [iht, balanced]
    exact ihf depth ts

end Parse

/-! ## 3. Incomplete expressions

The converse reads a token list from the left. Between two parentheses that are still open stands the
beginning of an expression, and what it lacks depends on where it stops. The rules are left-recursive,
so a beginning is not described by the tree it has so far but by the trees it can become. -/

/-- What becomes an expression with any term behind it. -/
def AwaitsTerm (ts : List Token) : Prop :=
  ∀ t : Parse .term, Derivable (ts ++ t.tokens)

/-- What ends with a term that may still grow by factors. -/
def EndsInTerm (ts : List Token) : Prop :=
  ∃ (before : List Token) (t : Parse .term), AwaitsTerm before ∧ before ++ t.tokens = ts

/-- What ends with a term, with any factor behind it. -/
def AwaitsFactor (ts : List Token) : Prop :=
  ∀ f : Parse .factor, EndsInTerm (ts ++ f.tokens)

theorem EndsInTerm.derivable {ts : List Token} (h : EndsInTerm ts) : Derivable ts := by
  obtain ⟨before, t, awaits, rfl⟩ := h
  exact awaits t

theorem AwaitsTerm.awaitsFactor {ts : List Token} (h : AwaitsTerm ts) : AwaitsFactor ts :=
  fun f => ⟨ts, .factor f, h, rfl⟩

theorem awaitsFactor_nil : AwaitsFactor [] :=
  AwaitsTerm.awaitsFactor fun t => ⟨.term t, rfl⟩

/-- Behind an operator a factor may follow: one more of the last term after `*` and `/`, the first of
a new term after `+` and `-`. -/
theorem EndsInTerm.awaitsFactor {ts : List Token} (h : EndsInTerm ts) (o : Operator) :
    AwaitsFactor (ts ++ [.operator o]) := by
  obtain ⟨e, he⟩ := h.derivable
  obtain ⟨before, t, awaits, ht⟩ := h
  cases o with
  | add => exact AwaitsTerm.awaitsFactor fun t' => ⟨.add e t', by simp [Parse.tokens, he]⟩
  | subtract => exact AwaitsTerm.awaitsFactor fun t' => ⟨.subtract e t', by simp [Parse.tokens, he]⟩
  | multiply => exact fun f => ⟨before, .multiply t f, awaits, by simp [Parse.tokens, ← ht]⟩
  | divide => exact fun f => ⟨before, .divide t f, awaits, by simp [Parse.tokens, ← ht]⟩

/-- The tokens read so far: the beginnings before each open parenthesis, the innermost first, and what
stands behind the last one. -/
def readSoFar : List (List Token) → List Token → List Token
  | [], ts => ts
  | outer :: frames, ts => readSoFar frames (outer ++ .opening :: ts)

theorem readSoFar_append (frames : List (List Token)) (ts us : List Token) :
    readSoFar frames (ts ++ us) = readSoFar frames ts ++ us := by
  induction frames generalizing ts with
  | nil => rfl
  | cons outer frames ih =>
    simp only [readSoFar]
    rw [← ih]
    simp

/-- What stands behind the last open parenthesis, by what may come next. -/
def Stands : Place → List Token → Prop
  | .operand, ts => AwaitsFactor ts
  | .operator, ts => EndsInTerm ts

/-- **The rest of an expression completes its beginning.** -/
theorem derivable_of_alternates : ∀ (place : Place) (frames : List (List Token))
    (inner ts : List Token), (∀ outer ∈ frames, AwaitsFactor outer) → Stands place inner →
      alternates place ts = true → balanced frames.length ts = true →
      Derivable (readSoFar frames inner ++ ts)
  | .operand, frames, inner, .number x :: ts, hf, hs, ha, hb => by
      have := derivable_of_alternates .operator frames (inner ++ [Token.number x]) ts hf
        (hs (.number x)) ha (by simpa only [balanced] using hb)
      rwa [readSoFar_append, List.append_assoc] at this
  | .operand, frames, inner, .opening :: ts, hf, hs, ha, hb => by
      have := derivable_of_alternates .operand (inner :: frames) [] ts
        (List.forall_mem_cons.mpr ⟨hs, hf⟩) awaitsFactor_nil ha
        (by simpa only [balanced, List.length_cons] using hb)
      rwa [readSoFar, readSoFar_append, List.append_assoc] at this
  | .operator, frames, inner, .operator o :: ts, hf, hs, ha, hb => by
      have := derivable_of_alternates .operand frames (inner ++ [Token.operator o]) ts hf
        (EndsInTerm.awaitsFactor hs o) ha (by simpa only [balanced] using hb)
      rwa [readSoFar_append, List.append_assoc] at this
  | .operator, outer :: frames, inner, .closing :: ts, hf, hs, ha, hb => by
      -- the innermost beginning is complete and becomes a factor of the one around it
      obtain ⟨houter, hf⟩ := List.forall_mem_cons.mp hf
      obtain ⟨e, rfl⟩ := EndsInTerm.derivable hs
      have := derivable_of_alternates .operator frames (outer ++ (Parse.group e).tokens) ts hf
        (houter (.group e)) ha (by simpa only [balanced, List.length_cons] using hb)
      rw [readSoFar]
      simp only [Parse.tokens, readSoFar_append, List.append_assoc, List.cons_append] at this ⊢
      exact this
  | .operator, [], inner, [], _, hs, _, _ => by
      rw [List.append_nil]
      exact EndsInTerm.derivable hs

/-- **The grammar derives the lists that alternate and whose parentheses match.** -/
theorem derivable_iff {ts : List Token} :
    Derivable ts ↔ alternates .operand ts = true ∧ balanced 0 ts = true := by
  constructor
  · rintro ⟨e, rfl⟩
    have ha := e.alternates_tokens []
    have hb := e.balanced_tokens 0 []
    rw [List.append_nil] at ha hb
    exact ⟨ha, hb⟩
  · rintro ⟨ha, hb⟩
    exact derivable_of_alternates .operand [] [] ts (by simp) awaitsFactor_nil ha hb

end Reckoner
