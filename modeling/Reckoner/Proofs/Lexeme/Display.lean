import Reckoner.Formula
import Reckoner.Proofs.Decimal.Whole
import Reckoner.Proofs.Lexeme.Spelling
import Reckoner.Proofs.Acceptance

/-!
# What is displayed can be read

The text of a lexeme is one of the ways to write it, if the lexeme can be written at all
(`Lexeme.Writable`): a number must be finite and have no sign, since a minus sign is an operator, and a
symbol must have a name. The texts of several lexemes with single spaces between them spell these
lexemes: no space belongs to a lexeme, so no two of them merge.

**What is displayed with single spaces is read as it was** (`Lexeme.display_reads_back`), with the bits
of its numbers; so the numeric expression of a formula evaluates to the value of the formula again.
-/

namespace Reckoner

/-! ## 1. What can be written -/

/-- **A token that can be written**: a number must be finite and have no sign. -/
def Token.Writable : Token → Prop
  | number x => x.isFinite = true ∧ x.isNegative = false
  | operator _ | opening | closing => True

namespace Lexeme

/-- **A lexeme that can be written**: a writable token, or a symbol with a name. -/
def Writable : Lexeme → Prop
  | token t => t.Writable
  | symbol (.reference name) => Name.isValid name = true
  | symbol (.placeholder name) => Placeholder.isName name.toList = true

/-- A name is a character that may start it and others that may go on in it. -/
theorem exists_first {start part : Char → Bool} {cs : List Char}
    (h : (cs.head?.any start && cs.all part) = true) :
    ∃ c others, cs = c :: others ∧ start c = true ∧ ∀ x ∈ others, part x = true := by
  simp only [Bool.and_eq_true, Option.any_eq_true, List.all_eq_true] at h
  obtain ⟨⟨c, first, starts⟩, parts⟩ := h
  obtain ⟨others, rfl⟩ := List.head?_eq_some_iff.mp first
  exact ⟨c, others, rfl, starts, fun x hx => parts x (List.mem_cons_of_mem _ hx)⟩

/-- **The text of a lexeme that can be written is one of the ways to write it.** -/
theorem Writable.written {d : Dialect} {l : Lexeme} (h : l.Writable)
    (admitted : ∀ s, l = symbol s → d.admits s = true) : Written d l l.text.toList := by
  match l with
  | token (.operator o) =>
    have same : (text (token (.operator o))).toList = [o.symbol] := String.toList_singleton _
    rw [same]
    exact .operator o
  | token .opening => exact .opening
  | token .closing => exact .closing
  | token (.number x) =>
    obtain ⟨q, literal, rounded⟩ := Number.literal_text h.1 h.2
    have written : Written d _ _ := .number literal rounded
    rwa [Binary64.ofPattern_magnitude h.2] at written
  | symbol (.reference name) =>
    obtain ⟨c, cs, whole, start, parts⟩ := exists_first (h : Name.isValid name = true)
    have written : Written d (symbol (.reference (String.ofList (c :: cs)))) (c :: cs) :=
      .reference (admitted _ rfl) start parts
    rwa [← whole, String.ofList_toList] at written
  | symbol (.placeholder name) =>
    obtain ⟨c, cs, whole, start, parts⟩ := exists_first (h : Placeholder.isName name.toList = true)
    have written : Written d (symbol (.placeholder (String.ofList (c :: cs))))
        ('{' :: '{' :: ([] ++ '#' :: (c :: cs ++ ([] ++ ['}', '}'])))) :=
      .placeholder (admitted _ rfl) (by simp) start parts (by simp)
    rw [← whole, String.ofList_toList] at written
    simpa [text, Symbol.text, Placeholder.text] using written

/-! ## 2. With single spaces -/

/-- **Lexemes with single spaces between them are spelled**, behind any gap. -/
theorem spelled_spaced {d : Dialect} : ∀ (gap : List Char) (l : Lexeme) (ls : List Lexeme),
    (∀ c ∈ gap, isSeparator c = true) → (∀ x ∈ l :: ls, Written d x x.text.toList) →
      ∃ ps, Spelled d ps [] (gap ++ [' '].intercalate ((l :: ls).map fun x => x.text.toList)) ∧
        ps.map Piece.lexeme = l :: ls
  | gap, l, [], blank, written => by
      have only : Spelled d [⟨gap, l, l.text.toList⟩] [] (gap ++ (l.text.toList ++ [])) :=
        .piece (p := ⟨gap, l, l.text.toList⟩) blank (written l List.mem_cons_self)
          (ends_of_separator (by simp)) (.last (by simp))
      rw [List.append_nil] at only
      exact ⟨_, by simpa using only, rfl⟩
  | gap, l, l' :: ls, blank, written => by
      obtain ⟨ps, others, lexemes⟩ := spelled_spaced [' '] l' ls (List.forall_mem_singleton.mpr rfl)
        fun x hx => written x (List.mem_cons_of_mem _ hx)
      have first := Spelled.piece (p := ⟨gap, l, l.text.toList⟩) blank
        (written l List.mem_cons_self) (ends_of_separator (by simp [isSeparator])) others
      refine ⟨⟨gap, l, l.text.toList⟩ :: ps, ?_, by rw [List.map_cons, lexemes]⟩
      rw [List.map_cons, List.map_cons, List.intercalate_cons_cons, List.append_assoc]
      exact first

/-- **The texts of lexemes with single spaces between them are read as the lexemes.** -/
theorem ofText_spaced {d : Dialect} {ls : List Lexeme}
    (written : ∀ l ∈ ls, Written d l l.text.toList) :
    ofText d (" ".intercalate (ls.map text)) = .ok ls := by
  rw [ofText_eq_ok_iff, String.toList_intercalate, List.map_map]
  match ls with
  | [] => exact ⟨[], [], .last (by simp), rfl⟩
  | l :: ls =>
    obtain ⟨ps, spelled, lexemes⟩ := spelled_spaced [] l ls (by simp) written
    exact ⟨ps, [], spelled, lexemes⟩

end Lexeme

/-! ## 3. Tokens -/

namespace Token

/-- Where there are no symbols, there is nothing to bind. -/
theorem bind_tokens {value : Symbol → Except Fault Binary64} (ts : List Token) :
    Lexeme.bind value (ts.map Lexeme.token) = .ok ts := by
  induction ts with
  | nil => rfl
  | cons t ts ih =>
    rw [List.map_cons, Lexeme.bind_cons, ih]
    rfl

/-- **A list of tokens that can be written is read from its text.** -/
theorem ofText_render {ts : List Token} (h : ∀ t ∈ ts, t.Writable) :
    ofText (render ts) = .ok ts := by
  have written : ∀ l ∈ ts.map Lexeme.token, Lexeme.Written .numeric l l.text.toList := by
    intro l hl
    obtain ⟨t, ht, rfl⟩ := List.mem_map.mp hl
    have writable : (Lexeme.token t).Writable := h t ht
    exact writable.written fun s hs => nomatch hs
  have read := Lexeme.ofText_spaced written
  rw [List.map_map] at read
  have text : Lexeme.text ∘ Lexeme.token = text := rfl
  rw [text] at read
  unfold ofText render
  rw [read]
  exact bind_tokens ts

end Token

/-- **What is displayed can be read**: lexemes that can be written are read from their texts with single
spaces between them, as they were and with the bits of their numbers; so are tokens, as a text without
symbols; and the numeric expression of a formula, if its tokens can be written, has the value of the
formula. -/
theorem display_reads_back :
    (∀ ls : List Lexeme, (∀ l ∈ ls, l.Writable) →
      Lexeme.ofText .formula (" ".intercalate (ls.map Lexeme.text)) = .ok ls) ∧
      (∀ ts : List Token, (∀ t ∈ ts, t.Writable) → Token.ofText (Token.render ts) = .ok ts) ∧
      ∀ vars context expression e, Formula.evaluate vars context expression = .ok e →
        (∀ t ∈ e.tokens, t.Writable) → evaluateText e.numericExpression = .ok e.value := by
  refine ⟨fun ls h => ?_, fun ts => Token.ofText_render, fun vars context expression e he h => ?_⟩
  · exact Lexeme.ofText_spaced fun l hl => (h l hl).written fun s _ => by cases s <;> rfl
  · have evaluated := (Formula.accepted_of_evaluate he).evaluated
    unfold evaluateText Evaluation.numericExpression
    rw [Token.ofText_render h]
    exact evaluated

end Reckoner
