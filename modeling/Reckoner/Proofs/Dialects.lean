import Mathlib
import Reckoner.Proofs.Lexeme.Display
import Reckoner.Proofs.Book.Validation

/-!
# Wider dialects

A dialect that has more symbols allows more characters, looks for placeholders where there were none
to look for, and takes another branch at a letter. How a lexeme is written, though, mentions a dialect
only to admit a symbol, and what may follow a lexeme does not mention it at all. So **a text that is
read in a dialect is read as the same lexemes in every wider one** (`Lexeme.ofText_of_within`).

What was meant for a narrow dialect therefore means the same in a wider one: a text without symbols
has as a formula the value it has by itself (`Formula.evaluate_of_tokens`), and the names that the
expression of a variable depends on are those that it refers to as a formula, so they are what the
check of a formula asks for (`Dialect.wider_conservative`).
-/

namespace Reckoner

/-! ## 1. Reading in a wider dialect -/

/-- **A dialect is within another** that has all its symbols. -/
structure Dialect.Within (d d' : Dialect) : Prop where
  references : d.references = true → d'.references = true
  placeholders : d.placeholders = true → d'.placeholders = true

theorem Dialect.numeric_within (d : Dialect) : numeric.Within d :=
  ⟨(nomatch ·), (nomatch ·)⟩

theorem Dialect.dynamic_within_formula : dynamic.Within formula :=
  ⟨fun _ => rfl, (nomatch ·)⟩

namespace Lexeme

variable {d d' : Dialect}

/-- What is written in a dialect is written so in a wider one. -/
theorem Written.of_within (within : d.Within d') {l : Lexeme} {w : List Char} (h : Written d l w) :
    Written d' l w := by
  cases h with
  | operator o => exact .operator o
  | opening => exact .opening
  | closing => exact .closing
  | number literal rounded => exact .number literal rounded
  | reference allowed start parts => exact .reference (within.references allowed) start parts
  | placeholder allowed blank start parts blank' =>
    exact .placeholder (within.placeholders allowed) blank start parts blank'

/-- A text is spelled in a wider dialect by the same pieces. -/
theorem Spelled.of_within (within : d.Within d') {ps : List Piece} {last cs : List Char}
    (h : Spelled d ps last cs) : Spelled d' ps last cs := by
  induction h with
  | last blank => exact .last blank
  | piece blank written ends _ ih => exact .piece blank (written.of_within within) ends ih

/-- **A text that is read in a dialect is read as the same lexemes in every wider one.** -/
theorem ofText_of_within (within : d.Within d') {text : String} {ls : List Lexeme}
    (read : ofText d text = .ok ls) : ofText d' text = .ok ls := by
  obtain ⟨ps, last, spelled, lexemes⟩ := ofText_eq_ok_iff.mp read
  exact ofText_eq_ok_iff.mpr ⟨ps, last, spelled.of_within within, lexemes⟩

/-! ## 2. Texts without symbols -/

/-- Lexemes without a symbol are tokens. -/
theorem exists_tokens : ∀ {ls : List Lexeme}, (∀ s, symbol s ∉ ls) →
    ∃ ts : List Token, ls = ts.map token
  | [], _ => ⟨[], rfl⟩
  | symbol s :: _, plain => absurd List.mem_cons_self (plain s)
  | token t :: ls, plain => by
      obtain ⟨ts, rfl⟩ := exists_tokens fun s hs => plain s (List.mem_cons_of_mem _ hs)
      exact ⟨t :: ts, rfl⟩

end Lexeme

/-- **A text without symbols is read as its tokens**, in any dialect. -/
theorem Token.read_of_ofText {text : String} {ts : List Token} (h : ofText text = .ok ts)
    (d : Dialect) : Lexeme.ofText d text = .ok (ts.map Lexeme.token) := by
  obtain ⟨ls, read, bound⟩ := bind_eq_ok h
  have plain : ∀ s, Lexeme.symbol s ∉ ls := by
    intro s hs
    cases s <;> cases Lexeme.ofText_admits read hs
  obtain ⟨us, rfl⟩ := Lexeme.exists_tokens plain
  cases (bind_tokens us).symm.trans bound
  exact Lexeme.ofText_of_within d.numeric_within read

/-- **A text without symbols has as a formula the value that it has by itself**, or the same fault,
whatever variables and context there are. -/
theorem Formula.evaluate_of_tokens {vars : List Variable} {values : List (String × Binary64)}
    (resolves : Reckoner.resolve vars = .ok values) {text : String} {ts : List Token}
    (h : Token.ofText text = .ok ts) (context : Context) :
    (evaluate vars context text).map Evaluation.value =
      (evaluateText text).mapError Failure.plain := by
  have read := Token.read_of_ofText h .formula
  have held : ∀ name ∈ Placeholder.names text, (context name).isSome = true := by
    intro name hn
    simp [Lexeme.mem_names_iff read] at hn
  rw [evaluate_of_resolve resolves held, read, evaluateText, h]
  show (Lexeme.bind _ (ts.map Lexeme.token) >>= Token.evaluate).mapError _ =
    (Token.evaluate ts).mapError _
  rw [Token.bind_tokens]
  rfl

/-! ## 3. What an expression depends on -/

/-- **What an expression of a variable depends on is what it refers to as a formula.** -/
theorem Lexeme.read_of_dependencies {text : String} {names : List String}
    (h : dependencies text = .ok names) : ∃ ls, ofText .formula text = .ok ls ∧
      names = Text.sortedDistinct (references ls) := by
  obtain ⟨ls, read, listed⟩ := bind_eq_ok h
  exact ⟨ls, ofText_of_within Dialect.dynamic_within_formula read, (Except.ok.inj listed).symm⟩

/-- **The leftmost name that is not there** is the fault that the check of an expression finds. -/
theorem Book.exists_leftmost_undefined {b : Book} {text name : String} {ls : List Lexeme}
    (read : Lexeme.ofText .formula text = .ok ls) (refers : name ∈ Lexeme.references ls)
    (missing : name ∉ namesOf b.vars) : ∃ before leftmost behind,
      Lexeme.references ls = before ++ leftmost :: behind ∧
        (∀ other ∈ before, other ∈ namesOf b.vars) ∧ leftmost ∉ namesOf b.vars ∧
          b.validate text = .error (.undefinedVariable leftmost) := by
  rw [validate_of_read read]
  cases found : b.undefined? (Lexeme.references ls) with
  | none => exact absurd ((undefined?_eq_none_iff read).mp found name refers) missing
  | some leftmost =>
    obtain ⟨undefined, before, behind, whole, defined⟩ := List.find?_eq_some_iff_append.mp found
    have refers : ∀ other ∈ before ++ [leftmost], other ∈ Lexeme.references ls := by
      intro other ho
      rw [whole, ← List.singleton_append, ← List.append_assoc]
      exact List.mem_append_left _ ho
    have leftmostRefers := refers leftmost (by simp)
    refine ⟨before, leftmost, behind, whole, fun other ho => ?_,
      (isNone_findVariable_iff read leftmostRefers).mp undefined, rfl⟩
    have present := defined other ho
    by_contra absent
    rw [(isNone_findVariable_iff read (refers other (List.mem_append_left _ ho))).mpr absent] at present
    cases present

/-- **A wider dialect takes nothing away.** A text that is read in a dialect is read as the same
lexemes in every dialect that has all its symbols. So a text of tokens has, over variables that can be
resolved and in any context, the value as a formula that it has by itself, or the same fault; and what
an expression of a variable depends on is what it refers to as a formula, so a book that has all of
these names passes its check, and in one that lacks some the check finds the leftmost of them. -/
theorem Dialect.wider_conservative :
    (∀ d d' : Dialect, d.Within d' → ∀ text ls,
      Lexeme.ofText d text = .ok ls → Lexeme.ofText d' text = .ok ls) ∧
    (∀ text ts, Token.ofText text = .ok ts → ∀ vars values, resolve vars = .ok values →
      ∀ context, (Formula.evaluate vars context text).map Evaluation.value =
        (evaluateText text).mapError Failure.plain) ∧
    ∀ text names, dependencies text = .ok names → ∃ ls, Lexeme.ofText .formula text = .ok ls ∧
      (∀ name, name ∈ names ↔ .symbol (.reference name) ∈ ls) ∧
      ∀ b : Book,
        ((∀ name ∈ names, name ∈ namesOf b.vars) → b.validate text = .ok ()) ∧
        ((∃ name ∈ names, name ∉ namesOf b.vars) → ∃ before leftmost behind,
          Lexeme.references ls = before ++ leftmost :: behind ∧
            (∀ other ∈ before, other ∈ namesOf b.vars) ∧ leftmost ∉ namesOf b.vars ∧
              b.validate text = .error (.undefinedVariable leftmost)) := by
  refine ⟨fun d d' within text ls => Lexeme.ofText_of_within within,
    fun text ts h vars values resolves => Formula.evaluate_of_tokens resolves h,
    fun text names h => ?_⟩
  obtain ⟨ls, read, rfl⟩ := Lexeme.read_of_dependencies h
  simp only [Text.mem_sortedDistinct]
  refine ⟨ls, read, fun name => Lexeme.mem_references, fun b => ⟨fun all => ?_, ?_⟩⟩
  · exact Book.validate_eq_ok_iff.mpr ⟨ls, read, all⟩
  · rintro ⟨name, refers, missing⟩
    exact Book.exists_leftmost_undefined read refers missing

/-- A constant, the only variable of its book. -/
def wage : Variable :=
  ⟨⟨"WAGE", by decide⟩, .constant, "40"⟩

/-- A book without the name that stands in the middle of an expression finds that one missing. -/
theorem wage_lacks_bonus :
    dependencies "WAGE + BONUS / WAGE" = .ok ["BONUS", "WAGE"] ∧
      (⟨[wage], []⟩ : Book).validate "WAGE + BONUS / WAGE" = .error (.undefinedVariable "BONUS") := by
  have depends : dependencies "WAGE + BONUS / WAGE" = .ok ["BONUS", "WAGE"] := by cbv
  have lacks : "BONUS" ∉ namesOf [wage] := by decide
  obtain ⟨ls, -, names, checked⟩ := Dialect.wider_conservative.2.2 _ _ depends
  obtain ⟨before, leftmost, behind, whole, -, missing, fails⟩ :=
    (checked ⟨[wage], []⟩).2 ⟨"BONUS", by decide, lacks⟩
  have refers : leftmost ∈ ["BONUS", "WAGE"] :=
    (names leftmost).mpr (Lexeme.mem_references.mp (by simp [whole]))
  rcases List.mem_pair.mp refers with rfl | rfl
  · exact ⟨depends, fails⟩
  · exact absurd (by decide) missing

end Reckoner
