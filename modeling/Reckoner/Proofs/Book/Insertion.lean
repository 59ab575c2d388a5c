import Mathlib
import Reckoner.Proofs.Book.Changes

/-!
# What a checked insertion judges

`Book.addCheckedFormula` checks an expression as it is given, and `Book.addFormula` stores it without
the white space at its ends: the check and the book see different texts. White space also has two
meanings. All of it is taken off, while between lexemes only spaces and tabs may stand.

No lexeme starts or ends with white space. So a blank at an end of a text that is read belongs to a gap
(`Lexeme.Spelled.of_cons`, `Lexeme.Spelled.of_concat`), and gaps can be shortened and extended at will:
**a text is read as a list of lexemes exactly if it is without the white space at its ends, and this is
nothing but spaces and tabs** (`Lexeme.ofText_iff_trim`). The check of the expression that is given is
then the check of the one that is stored, and a condition on its ends
(`Book.addCheckedFormula_judges_stored`).
-/

namespace Reckoner

namespace Lexeme

variable {d : Dialect} {l : Lexeme} {ls : List Lexeme} {c : Char} {w cs text : List Char}

/-! ## 1. The ends of a lexeme -/

/-- **No lexeme starts or ends with white space**; a placeholder may hold some. -/
theorem Written.solid_ends (h : Written d l w) :
    (∀ c ∈ w.head?, Text.isBlank c = false) ∧ ∀ c ∈ w.getLast?, Text.isBlank c = false := by
  have sign : ∀ {c : Char}, Text.isBlank c = false → ∀ x ∈ [c], Text.isBlank x = false :=
    fun solid => List.forall_mem_singleton.mpr solid
  cases h with
  | operator o => exact Text.ends_of_solid (sign (by cases o <;> rfl))
  | opening => exact Text.ends_of_solid (sign rfl)
  | closing => exact Text.ends_of_solid (sign rfl)
  | number literal rounded =>
    exact Text.ends_of_solid fun c hc => Name.isBlank_of_isNumeric (literal.isNumeric.2 c hc)
  | @reference c cs allowed start parts =>
    have inside : ∀ x ∈ c :: cs, Name.isPart x = true :=
      List.forall_mem_cons.mpr ⟨Name.isPart_of_isStart start, parts⟩
    exact Text.ends_of_solid fun x hx => Name.isBlank_of_isPart (inside x hx)
  | @placeholder c before cs behind =>
    have last : '{' :: '{' :: (before ++ '#' :: (c :: cs ++ (behind ++ ['}', '}']))) =
        '{' :: '{' :: (before ++ '#' :: (c :: cs ++ (behind ++ ['}']))) ++ ['}'] := by simp
    refine ⟨fun x hx => ?_, fun x hx => ?_⟩
    · cases hx
      rfl
    · rw [last, List.getLast?_concat] at hx
      cases hx
      rfl

/-! ## 2. One blank at an end -/

section

variable {ps : List Piece} {last : List Char}

/-- A blank that a text starts with is a separator, and what stands behind it is spelled as well. -/
theorem Spelled.of_cons (h : Spelled d ps last (c :: cs)) (blank : Text.isBlank c = true) :
    isSeparator c = true ∧
      ∃ ps' last', Spelled d ps' last' cs ∧ ps'.map Piece.lexeme = ps.map Piece.lexeme := by
  generalize whole : c :: cs = text at h
  cases h with
  | last gap =>
    subst whole
    obtain ⟨separates, gap⟩ := List.forall_mem_cons.mp gap
    exact ⟨separates, [], cs, .last gap, rfl⟩
  | @piece p ps last rest gap written ends more =>
    obtain ⟨g, l, w⟩ := p
    cases g with
    | nil =>
      -- a lexeme stands first, but none starts with white space
      obtain ⟨first, w', rfl, -⟩ := written.head
      cases whole
      cases blank.symm.trans (written.solid_ends.1 c rfl)
    | cons first g =>
      cases whole
      obtain ⟨separates, gap⟩ := List.forall_mem_cons.mp gap
      exact ⟨separates, ⟨g, l, w⟩ :: ps, last, .piece (p := ⟨g, l, w⟩) gap written ends more, rfl⟩

/-- A blank that a text ends with is a separator, and what stands before it is spelled as well. -/
theorem Spelled.of_concat (h : Spelled d ps last text) (whole : text = cs ++ [c])
    (blank : Text.isBlank c = true) : isSeparator c = true ∧
      ∃ ps' last', Spelled d ps' last' cs ∧ ps'.map Piece.lexeme = ps.map Piece.lexeme := by
  induction h generalizing cs with
  | last gap =>
    subst whole
    obtain ⟨gap, separates⟩ := List.forall_mem_append.mp gap
    exact ⟨separates c List.mem_cons_self, [], cs, .last gap, rfl⟩
  | @piece p ps last rest gap written ends more ih =>
    rcases List.eq_nil_or_concat rest with rfl | ⟨before, final, rfl⟩
    · -- a lexeme stands last, but none ends with white space
      have nonempty : p.written ≠ [] := by
        obtain ⟨first, w, h, -⟩ := written.head
        simp [h]
      have final : c ∈ p.written.getLast? := by
        rw [List.append_nil] at whole
        rw [← List.getLast?_append_of_ne_nil p.gap nonempty, whole]
        exact List.getLast?_concat
      cases blank.symm.trans (written.solid_ends.2 c final)
    · have whole' : p.gap ++ (p.written ++ before) ++ [final] = cs ++ [c] := by
        rw [← whole]
        simp
      obtain ⟨rfl, same⟩ := List.append_inj' whole' rfl
      cases same
      obtain ⟨separates, ps', last', spelled, lexemes⟩ := ih List.concat_eq_append
      have ends' : p.lexeme.Ends before := by
        cases before with
        | nil => exact ends_of_separator (by simp)
        | cons first before => exact ends.congr rfl
      exact ⟨separates, p :: ps', last', .piece gap written ends' spelled, by simp [lexemes]⟩

/-- A separator behind a text belongs to its last gap. -/
theorem Spelled.concat_separator (h : Spelled d ps last cs) (separates : isSeparator c = true) :
    Spelled d ps (last ++ [c]) (cs ++ [c]) := by
  induction h with
  | last gap => exact .last (List.forall_mem_append.mpr ⟨gap, by simpa using separates⟩)
  | @piece p ps last rest gap written ends more ih =>
    have ends' : p.lexeme.Ends (rest ++ [c]) := by
      cases rest with
      | nil => exact ends_of_separator (by simpa using separates)
      | cons first rest => exact ends.congr rfl
    rw [List.append_assoc, List.append_assoc]
    exact .piece gap written ends' ih

end

/-- **White space before a text** is read over if it consists of separators, and refused otherwise. -/
theorem ofText_append_iff_left {front : List Char} (blank : ∀ c ∈ front, Text.isBlank c = true) :
    ofText d (String.ofList (front ++ cs)) = .ok ls ↔
      (∀ c ∈ front, isSeparator c = true) ∧ ofText d (String.ofList cs) = .ok ls := by
  induction front with
  | nil => simp
  | cons c front ih =>
    obtain ⟨blank, blanks⟩ := List.forall_mem_cons.mp blank
    rw [List.forall_mem_cons, and_assoc, ← ih blanks]
    simp only [ofText_eq_ok_iff, String.toList_ofList, List.cons_append]
    constructor
    · rintro ⟨ps, last, spelled, rfl⟩
      exact spelled.of_cons blank
    · rintro ⟨separates, ps, last, spelled, rfl⟩
      exact spelled.cons_separator separates

/-- **White space behind a text** is read over if it consists of separators, and refused otherwise. -/
theorem ofText_append_iff_right {behind : List Char} (blank : ∀ c ∈ behind, Text.isBlank c = true) :
    ofText d (String.ofList (cs ++ behind)) = .ok ls ↔
      (∀ c ∈ behind, isSeparator c = true) ∧ ofText d (String.ofList cs) = .ok ls := by
  induction behind generalizing cs with
  | nil => simp
  | cons c behind ih =>
    obtain ⟨blank, blanks⟩ := List.forall_mem_cons.mp blank
    rw [List.append_cons, ih blanks, List.forall_mem_cons, and_comm (a := isSeparator c = true),
      and_assoc]
    refine and_congr_right fun _ => ?_
    simp only [ofText_eq_ok_iff, String.toList_ofList]
    constructor
    · rintro ⟨ps, last, spelled, rfl⟩
      exact spelled.of_concat rfl blank
    · rintro ⟨separates, ps, last, spelled, rfl⟩
      exact ⟨ps, _, spelled.concat_separator separates, rfl⟩

/-! ## 3. Texts and what they are without the white space at their ends -/

/-- **The white space at the ends of a text consists of separators**: it is spaces and tabs. -/
def PlainEnds (text : String) : Prop :=
  ∃ front behind, text.toList = front ++ Text.trimmed text.toList ++ behind ∧
    ∀ c ∈ front ++ behind, isSeparator c = true

/-- **A text is read exactly as it is without the white space at its ends**, if this is plain. -/
theorem ofText_iff_trim (text : String) : ofText d text = .ok ls ↔
    PlainEnds text ∧ ofText d (Text.trim text) = .ok ls := by
  have split : ∀ front behind, text.toList = front ++ Text.trimmed text.toList ++ behind →
      (∀ c ∈ front, Text.isBlank c = true) → (∀ c ∈ behind, Text.isBlank c = true) →
        (ofText d text = .ok ls ↔ (∀ c ∈ front ++ behind, isSeparator c = true) ∧
          ofText d (Text.trim text) = .ok ls) := by
    intro front behind whole before after
    calc ofText d text = .ok ls
      _ ↔ ofText d (String.ofList (front ++ (Text.trimmed text.toList ++ behind))) = .ok ls := by
        rw [← List.append_assoc, ← whole, String.ofList_toList]
      _ ↔ (∀ c ∈ front ++ behind, isSeparator c = true) ∧ ofText d (Text.trim text) = .ok ls := by
        rw [ofText_append_iff_left before, ofText_append_iff_right after, List.forall_mem_append,
          and_assoc, Text.trim]
  constructor
  · intro read
    obtain ⟨front, behind, whole, before, after⟩ := Text.exists_around text.toList
    obtain ⟨plain, read⟩ := (split front behind whole before after).mp read
    exact ⟨⟨front, behind, whole, plain⟩, read⟩
  · rintro ⟨⟨front, behind, whole, plain⟩, read⟩
    have blank : ∀ c ∈ front ++ behind, Text.isBlank c = true :=
      fun c hc => isBlank_of_isSeparator (plain c hc)
    obtain ⟨before, after⟩ := List.forall_mem_append.mp blank
    exact (split front behind whole before after).mpr ⟨plain, read⟩

end Lexeme

/-! ## 4. Checked insertion -/

namespace Book

/-- **An expression passes the check** if it passes without the white space at its ends, and this is
plain. -/
theorem validate_iff_trim {b : Book} {expression : String} : b.validate expression = .ok () ↔
    Lexeme.PlainEnds expression ∧ b.validate (Text.trim expression) = .ok () := by
  simp only [validate_eq_ok_iff, Lexeme.ofText_iff_trim expression, and_assoc,
    exists_and_left]

/-- **A checked insertion judges the expression that is stored, and its ends.** It succeeds exactly if
the insertion without a check does, the expression that this stores passes the check, and only spaces
and tabs were taken off the ends of the one that was given. The book is then the one that the insertion
without a check gives; otherwise it stays as it is. -/
theorem addCheckedFormula_judges_stored (b : Book) (f : Formula) :
    (∀ b', b.addCheckedFormula f = .ok b' ↔ b.addFormula f = .ok b' ∧
      Lexeme.PlainEnds f.expression ∧
        ∃ stored, b'.formulas = b.formulas ++ [stored] ∧ b.validate stored.expression = .ok ()) ∧
    (∀ b', b.addCheckedFormula f = .ok b' →
      b.change (.addCheckedFormula f) = b.change (.addFormula f)) ∧
    ((∀ b', b.addCheckedFormula f ≠ .ok b') → b.change (.addCheckedFormula f) = b) := by
  refine ⟨fun b' => ?_, fun b' checked => ?_, fun fails => ?_⟩
  · rw [addCheckedFormula_eq_ok_iff, and_comm, validate_iff_trim]
    refine and_congr_right fun added => and_congr_right fun _ => ?_
    obtain ⟨-, -, rfl⟩ := addFormula_eq_ok_iff.mp added
    simp
  · have added := (addCheckedFormula_eq_ok_iff.mp checked).2
    rw [change, change, Edit.outcome_eq_ok_iff.mp checked, Edit.outcome_eq_ok_iff.mp added]
  · cases checked : b.addCheckedFormula f with
    | ok b' => exact absurd checked (fails b')
    | error refusal => exact (addCheckedFormula_atomic f).of_refused ⟨refusal, checked⟩

/-- A formula whose expression stands between a space and a tab. -/
def indented : Formula :=
  ⟨⟨"INDENTED", by decide⟩, " 0\t"⟩

/-- Space and tab are taken off, and the checked insertion does not mind them. -/
theorem indented_stored : empty.addCheckedFormula indented =
    .ok ⟨[], [{ indented with expression := "0" }]⟩ := by
  have plain : Lexeme.PlainEnds indented.expression :=
    ⟨[' '], ['\t'], by cbv, by simp [Lexeme.isSeparator_iff]⟩
  have added : empty.addFormula indented = .ok ⟨[], [{ indented with expression := "0" }]⟩ := by cbv
  have passes : empty.validate "0" = .ok () := by cbv
  exact ((addCheckedFormula_judges_stored empty indented).1 _).mpr ⟨added, plain, _, rfl, passes⟩

/-- A formula whose expression ends with a line break. -/
def brokenLine : Formula :=
  ⟨⟨"BROKEN", by decide⟩, "0\n"⟩

/-- The insertion without a check stores `0`, which passes the check; but the checked insertion looks
at the line break, which separates nothing. -/
theorem brokenLine_refused :
    empty.addFormula brokenLine = .ok ⟨[], [{ brokenLine with expression := "0" }]⟩ ∧
      empty.validate "0" = .ok () ∧
        empty.addCheckedFormula brokenLine =
          .error (.failed (.plain (.invalidCharacter '\n' 1))) := by
  exact ⟨by cbv, by cbv, by cbv⟩

end Book

end Reckoner
