import Reckoner.Proofs.Lexeme.Placeholders
import Reckoner.Proofs.Formula.Context

/-!
# All placeholders of a text

A text is searched for placeholders from left to right, and behind one that was found the search goes
on where it ends. So a placeholder that starts inside another one would be missed; but there is none:
the braces that open a placeholder are its first two characters and no others, and what follows them is
no brace (`Placeholder.braces`), so what starts inside a placeholder starts at its second brace and has
no second brace of its own (`Placeholder.behind_of_overlap`).

**The search finds every place where a placeholder is written, once and in order**
(`Placeholder.mem_spansFrom_iff`, `Placeholder.pairwise_spansFrom`), and the names it lists are those
that the evaluation of a formula asks its context for (`Placeholder.spans_exact`).
-/

namespace Reckoner

namespace Placeholder

open Lexeme (Written)

/-! ## 1. One placeholder -/

section Braces

variable {d : Dialect} {name name' : String} {w w' rest rest' : List Char}

/-- **A placeholder opens with two braces**, and no other opening brace is in it. -/
theorem braces (h : Written d (.symbol (.placeholder name)) w) :
    ∃ c inner, w = '{' :: '{' :: c :: inner ∧ ∀ x ∈ c :: inner, x ≠ '{' := by
  cases h with
  | @placeholder c before cs behind allowed blank start parts blank' =>
    have other : ∀ x ∈ before ++ '#' :: (c :: cs ++ (behind ++ ['}', '}'])), x ≠ '{' := by
      intro x hx e
      subst e
      simp only [List.mem_append, List.mem_cons, List.not_mem_nil, or_false] at hx
      rcases hx with hx | hash | (e | hx) | hx | close | close
      · cases blank _ hx
      · cases hash
      · subst e
        cases start
      · cases parts _ hx
      · cases blank' _ hx
      · cases close
      · cases close
    match whole : before ++ '#' :: (c :: cs ++ (behind ++ ['}', '}'])) with
    | [] => simp at whole
    | y :: inner => exact ⟨y, inner, rfl, whole ▸ other⟩

/-- What is written as a placeholder is read as one, whatever follows it. -/
theorem read?_of_written (h : Written d (.symbol (.placeholder name)) w) (rest : List Char) :
    ∃ cs, name = String.ofList cs ∧ read? (w ++ rest) = some ⟨cs, w, rest⟩ := by
  cases h with
  | placeholder allowed blank start parts blank' =>
    exact ⟨_, rfl, Lexeme.read?_written blank start parts blank' rest⟩

/-- **A placeholder does not start inside another one.** -/
theorem behind_of_overlap {before : List Char} (h : Written d (.symbol (.placeholder name)) w)
    (h' : Written d (.symbol (.placeholder name')) w') (later : before ≠ [])
    (same : w ++ rest = before ++ (w' ++ rest')) :
    ∃ between, before = w ++ between ∧ rest = between ++ (w' ++ rest') := by
  obtain ⟨c, inner, rfl, other⟩ := braces h
  obtain ⟨c', inner', rfl, other'⟩ := braces h'
  rcases List.append_eq_append_iff.mp same with ⟨between, e, e'⟩ | ⟨inside, e, e'⟩
  · exact ⟨between, e, e'⟩
  match before, inside with
  | before, [] => exact ⟨[], by simpa using e.symm, by simpa using e'.symm⟩
  | [], y :: inside => exact absurd rfl later
  | [x], y :: inside =>
    -- the second brace of the one would be the character behind the braces of the other
    obtain ⟨-, tail⟩ := List.cons.inj e
    obtain ⟨rfl, rfl⟩ := List.cons.inj tail
    obtain ⟨-, e'⟩ := List.cons.inj e'
    obtain ⟨brace, -⟩ := List.cons.inj e'
    exact absurd brace.symm (other c List.mem_cons_self)
  | x :: x' :: before, y :: inside =>
    obtain ⟨-, tail⟩ := List.cons.inj e
    obtain ⟨-, tail⟩ := List.cons.inj tail
    obtain ⟨brace, -⟩ := List.cons.inj e'
    refine absurd brace.symm (other y ?_)
    rw [tail]
    exact List.mem_append_right _ List.mem_cons_self

end Braces

/-! ## 2. The search -/

/-- **A span is a place of a text where a placeholder is written**, in bytes behind an offset. -/
def Span.OccursFrom (offset : Nat) (cs : List Char) (s : Span) : Prop :=
  ∃ before w after, cs = before ++ (w ++ after) ∧ Written .formula (.symbol (.placeholder s.name)) w ∧
    s.start = offset + Text.byteCount before ∧ s.stop = s.start + Text.byteCount w

/-- **The spans that are found are the places where a placeholder is written.** -/
theorem mem_spansFrom_iff {offset : Nat} {cs : List Char} {s : Span} :
    s ∈ spansFrom offset cs ↔ s.OccursFrom offset cs := by
  fun_induction spansFrom offset cs with
  | case1 offset =>
    refine ⟨fun h => absurd h List.not_mem_nil, ?_⟩
    rintro ⟨before, w, after, whole, written, _⟩
    obtain ⟨c, inner, rfl, -⟩ := braces written
    simp at whole
  | case2 offset c cs r found stop ih =>
    have first := Lexeme.written_of_read? (d := .formula) rfl found
    have text := written_append_rest found
    constructor
    · intro h
      rcases List.mem_cons.mp h with rfl | h
      · exact ⟨[], r.written, r.rest, text.symm, first, rfl, rfl⟩
      · obtain ⟨before, w, after, whole, written, start, ends⟩ := ih.mp h
        refine ⟨r.written ++ before, w, after, ?_, written, ?_, ends⟩
        · rw [List.append_assoc, ← whole, text]
        · rw [start, Text.byteCount_append, Nat.add_assoc]
    · rintro ⟨before, w, after, whole, written, start, ends⟩
      by_cases here : before = []
      · subst here
        obtain ⟨name, named, read⟩ := read?_of_written written after
        rw [whole] at found
        cases read.symm.trans found
        obtain ⟨from', to', name'⟩ := s
        dsimp only at named start ends
        subst named ends start
        exact List.mem_cons_self
      · -- what is found later does not start inside what was found first
        obtain ⟨between, rfl, rest⟩ := behind_of_overlap first written here (text.trans whole)
        refine List.mem_cons_of_mem _ (ih.mpr ⟨between, w, after, rest, written, ?_, ends⟩)
        rw [start, Text.byteCount_append, Nat.add_assoc]
  | case3 offset c cs missing ih =>
    rw [ih]
    constructor
    · rintro ⟨before, w, after, whole, written, start, ends⟩
      refine ⟨c :: before, w, after, congrArg (c :: ·) whole, written, ?_, ends⟩
      rw [start, Text.byteCount, Nat.add_assoc]
    · rintro ⟨before, w, after, whole, written, start, ends⟩
      cases before with
      | nil =>
        obtain ⟨name, -, read⟩ := read?_of_written written after
        rw [whole] at missing
        cases read.symm.trans missing
      | cons x before =>
        obtain ⟨rfl, rest⟩ := List.cons.inj whole
        refine ⟨before, w, after, rest, written, ?_, ends⟩
        rw [start, Text.byteCount, Nat.add_assoc]

/-- **The spans that are found follow one another.** -/
theorem pairwise_spansFrom (offset : Nat) (cs : List Char) :
    (spansFrom offset cs).Pairwise fun s t => s.stop ≤ t.start := by
  fun_induction spansFrom offset cs with
  | case1 => exact .nil
  | case2 offset c cs r found stop ih =>
    refine List.pairwise_cons.mpr ⟨fun t ht => ?_, ih⟩
    obtain ⟨before, w, after, -, -, start, -⟩ := mem_spansFrom_iff.mp ht
    show stop ≤ t.start
    omega
  | case3 _ _ _ _ ih => exact ih

/-- A span is not empty. -/
theorem Span.OccursFrom.start_lt {offset : Nat} {cs : List Char} {s : Span}
    (h : s.OccursFrom offset cs) : s.start < s.stop := by
  obtain ⟨before, w, after, -, written, -, ends⟩ := h
  obtain ⟨c, inner, rfl, -⟩ := braces written
  have some : 0 < Char.utf8Size '{' := by decide
  rw [ends, Text.byteCount]
  omega

end Placeholder

/-! ## 3. What the evaluation of a formula asks for -/

namespace Formula

/-- **A formula asks its context for a name**: what it evaluates to may hang on the value of this name
alone. -/
def AsksFor (vars : List Variable) (expression name : String) : Prop :=
  ∃ context context' : Context, (∀ other, other ≠ name → context other = context' other) ∧
    evaluate vars context expression ≠ evaluate vars context' expression

/-- **The names listed for a formula are those that it asks for.** -/
theorem mem_names_iff_asksFor {vars : List Variable} {expression name : String} :
    name ∈ Placeholder.names expression ↔ AsksFor vars expression name := by
  constructor
  · intro listed
    -- with a value for every name nothing is missing, and without one for this name it is
    let lacking : Context := fun other => if other = name then none else some ⟨0⟩
    have first : FirstMissing expression lacking name :=
      { listed
        missing := if_pos rfl
        first := fun other _ missing => by
          by_cases same : other = name
          · exact same ▸ String.le_refl _
          · simp [lacking, same] at missing }
    refine ⟨fun _ => some ⟨0⟩, lacking, fun other ne => (if_neg ne).symm, fun same => ?_⟩
    rw [evaluate_missing_iff.mpr first, evaluate_missing_iff] at same
    cases same.missing
  · rintro ⟨context, context', same, differ⟩
    by_contra unlisted
    exact differ (evaluate_congr fun other listed => same other fun e => unlisted (e ▸ listed))

end Formula

/-- **The spans of a text are the places where a placeholder is written**, in their order, and no two of
them overlap. Where the text is read in a dialect with placeholders, those among its lexemes are the
spans, one by one; so the names listed for a text are those of its lexemes, and those that a formula with
this text asks its context for. -/
theorem Placeholder.spans_exact (text : String) :
    (∀ s, s ∈ spans text ↔ s.OccursFrom 0 text.toList) ∧
      (spans text).Pairwise (fun s t => s.stop ≤ t.start) ∧ (∀ s ∈ spans text, s.start < s.stop) ∧
      (∀ d ls, d.placeholders = true → Lexeme.ofText d text = .ok ls →
        Lexeme.placeholders ls = (spans text).map Span.name ∧
          ∀ name, name ∈ names text ↔ Lexeme.symbol (.placeholder name) ∈ ls) ∧
      ∀ vars name, name ∈ names text ↔ Formula.AsksFor vars text name := by
  refine ⟨fun s => mem_spansFrom_iff, pairwise_spansFrom 0 _, fun s hs => ?_, fun d ls has read => ?_,
    fun vars name => Formula.mem_names_iff_asksFor⟩
  · exact (mem_spansFrom_iff.mp hs).start_lt
  · have listed := Lexeme.placeholders_of_ofText has read
    refine ⟨listed, fun name => ?_⟩
    rw [mem_names, ← listed, Lexeme.mem_placeholders]

end Reckoner
