import Reckoner.Definitions.Reading
import Reckoner.Proofs.NormalForm
import Reckoner.Proofs.Resolution.Naive

/-!
# What a change makes of a book

One statement for each operation that changes a book says when it succeeds and what the book is then
(`addVariable_eq_ok_iff` and its like). They are said with the names that are there, and not with the
search that finds them: an entry is found by any spelling of its name (`findVariable_eq`).

An operation that may be refused is a number of steps, and the book is there also behind a step that
refuses. That it is then as it was before is a property of the steps (`Edit.Atomic`): **each operation
is made in full or not at all** (`addVariable_atomic` and its like).

`Change` is an operation with what it is given, and `Book.after` the book that a list of changes
leaves behind, also where some of them are refused.
-/

namespace Reckoner

/-- The names of formulas. -/
def namesOfFormulas (fs : List Formula) : List String :=
  fs.map fun f => f.name.text

/-- Nothing is left of a text exactly if it is trimmed to the empty one. -/
theorem Text.trim_eq_empty_iff {s : String} : trim s = "" ↔ trimmed s.toList = [] := by
  rw [trim, String.ofList_eq_empty_iff]

/-- **A variable lacks nothing** if its text, as a constant, is a number, and, as an expression, is
more than white space. -/
theorem Variable.defect?_eq_none_iff {v : Variable} : v.defect? = none ↔
    (v.kind = .constant → ∃ x, Number.ofConstant? v.text = some x) ∧
      (v.kind = .dynamic → Text.trim v.text ≠ "") := by
  unfold defect?
  cases v.kind with
  | constant => cases Number.ofConstant? v.text <;> simp
  | dynamic => simp [Text.trim_eq_empty_iff]

namespace Book

variable {b b' : Book} {v : Variable} {f : Formula} {raw text : String}

/-! ## 1. Looking up -/

/-- **A variable is found by any spelling of its name.** -/
theorem findVariable_eq (b : Book) (raw : String) :
    b.findVariable raw = definition? b.vars (Name.normalize raw) := rfl

theorem isSome_findVariable {name : String} (valid : Name.isValid name = true) :
    (b.findVariable name).isSome = true ↔ name ∈ namesOf b.vars := by
  rw [findVariable_eq, Name.normalize_of_isValid valid, Option.isSome_iff_ne_none, ne_eq,
    definition?_eq_none, not_not]

theorem isSome_findFormula {name : String} (valid : Name.isValid name = true) :
    (b.findFormula name).isSome = true ↔ name ∈ namesOfFormulas b.formulas := by
  simp [findFormula, Name.normalize_of_isValid valid, isNamed, namesOfFormulas]

/-! ## 2. Changes that may be refused -/

namespace Edit

section

variable {ε : Type} {e : Edit ε Unit} {refusal : ε}

theorem outcome_eq_ok_iff : e.outcome b = .ok b' ↔ e.apply b = (.ok (), b') := by
  unfold outcome
  rcases e.apply b with ⟨_ | _, _⟩ <;> simp

theorem outcome_eq_error_iff : e.outcome b = .error refusal ↔ (e.apply b).1 = .error refusal := by
  unfold outcome
  rcases e.apply b with ⟨_ | _, _⟩ <;> simp

/-- **A change that is made in full or not at all**: where it is refused, the book is as it was. -/
def Atomic (e : Edit ε Unit) : Prop :=
  ∀ b refusal, (e.apply b).1 = .error refusal → (e.apply b).2 = b

theorem Atomic.of_refused (atomic : e.Atomic) (refused : ∃ refusal, e.outcome b = .error refusal) :
    (e.apply b).2 = b := by
  obtain ⟨refusal, refused⟩ := refused
  exact atomic b refusal (outcome_eq_error_iff.mp refused)

/-- What holds of a book holds behind a change made in full or not at all, if it holds where the change
is not refused. -/
theorem Atomic.keeps {P : Book → Prop} (atomic : e.Atomic) (h : P b)
    (ok : ∀ b', e.outcome b = .ok b' → P b') : P (e.apply b).2 := by
  cases done : e.outcome b with
  | error refusal => exact (atomic.of_refused ⟨refusal, done⟩).symm ▸ h
  | ok b' =>
    rw [outcome_eq_ok_iff.mp done]
    exact ok b' done

theorem apply_check (v : Variable) (b : Book) : (check v).apply b =
    match v.defect? with
    | some defect => (.error (.invalidDefinition v.name.text defect), b)
    | none => (.ok (), b) := by
  unfold check
  cases v.defect? <;> rfl

end

end Edit

/-! ## 3. Variables -/

/-- The checks come first, and the book is written once they are passed. -/
theorem Edit.apply_addVariable (v : Variable) (b : Book) : (addVariable v).apply b =
    if (b.findVariable v.name.text).isSome then
      (.error (.duplicateName v.name.text), b)
    else
      match v.defect? with
      | some defect => (.error (.invalidDefinition v.name.text defect), b)
      | none => (.ok (), { b with vars := b.vars ++ [{ v with text := Text.trim v.text }] }) := by
  simp only [addVariable, apply_bind, apply_get]
  split
  · rfl
  · rw [apply_bind, apply_check]
    cases v.defect? <;> rfl

theorem addVariable_atomic (v : Variable) : (Edit.addVariable v).Atomic := by
  intro b refusal
  rw [Edit.apply_addVariable]
  split
  · exact fun _ => rfl
  · cases v.defect? with
    | some defect => exact fun _ => rfl
    | none => exact (nomatch ·)

/-- **Adding a variable** needs a new name and a usable text; the variable comes last, trimmed. -/
theorem addVariable_eq_ok_iff : b.addVariable v = .ok b' ↔
    v.name.text ∉ namesOf b.vars ∧ v.defect? = none ∧
      b' = { b with vars := b.vars ++ [{ v with text := Text.trim v.text }] } := by
  have taken := isSome_findVariable (b := b) v.name.valid
  unfold addVariable
  rw [Edit.outcome_eq_ok_iff, Edit.apply_addVariable]
  by_cases defined : v.name.text ∈ namesOf b.vars
  · rw [if_pos (taken.mpr defined)]
    exact ⟨(nomatch ·), fun h => absurd defined h.1⟩
  · rw [if_neg (taken.not.mpr defined)]
    cases v.defect? with
    | some defect => exact ⟨(nomatch ·), fun h => nomatch h.2.1⟩
    | none => exact ⟨fun h => ⟨defined, rfl, (Prod.mk.inj h).2.symm⟩, fun h => h.2.2 ▸ rfl⟩

theorem Edit.apply_updateVariable (raw text : String) (b : Book) : (updateVariable raw text).apply b =
    match b.findVariable raw with
    | none => (.error (.notFound (Name.normalize raw)), b)
    | some v =>
      match { v with text := Text.trim text }.defect? with
      | some defect => (.error (.invalidDefinition v.name.text defect), b)
      | none =>
        (.ok (), { b with
          vars := replaceFirst (Name.normalize raw) { v with text := Text.trim text } b.vars }) := by
  simp only [updateVariable, apply_bind, apply_get]
  cases b.findVariable raw with
  | none => rfl
  | some v =>
    simp only [apply_bind, apply_check]
    cases { v with text := Text.trim text }.defect? <;> rfl

theorem updateVariable_atomic (raw text : String) : (Edit.updateVariable raw text).Atomic := by
  intro b refusal
  rw [Edit.apply_updateVariable]
  cases b.findVariable raw with
  | none => exact fun _ => rfl
  | some v =>
    dsimp only
    cases { v with text := Text.trim text }.defect? with
    | some defect => exact fun _ => rfl
    | none => exact (nomatch ·)

/-- **Updating a variable** needs one with the name, and a usable text; only its text is another. -/
theorem updateVariable_eq_ok_iff : b.updateVariable raw text = .ok b' ↔
    ∃ v, b.findVariable raw = some v ∧ { v with text := Text.trim text }.defect? = none ∧
      b' = { b with
        vars := replaceFirst (Name.normalize raw) { v with text := Text.trim text } b.vars } := by
  unfold updateVariable
  rw [Edit.outcome_eq_ok_iff, Edit.apply_updateVariable]
  cases b.findVariable raw with
  | none => exact ⟨(nomatch ·), fun ⟨_, h, _⟩ => (nomatch h)⟩
  | some v =>
    simp only [Option.some.injEq, exists_eq_left']
    cases { v with text := Text.trim text }.defect? with
    | some defect => exact ⟨(nomatch ·), fun h => nomatch h.1⟩
    | none => exact ⟨fun h => ⟨rfl, (Prod.mk.inj h).2.symm⟩, fun h => h.2 ▸ rfl⟩

/-- The entry that is put in the place of another has its name. -/
theorem namesOf_replaceFirst {key : String} {entry : Variable} (named : entry.name.text = key)
    (vs : List Variable) : namesOf (replaceFirst key entry vs) = namesOf vs := by
  induction vs with
  | nil => rfl
  | cons v vs ih =>
    unfold replaceFirst
    split
    · rename_i same
      have same' : v.name.text = key := by simpa [isNamed] using same
      simp [namesOf, named, same']
    · simpa [namesOf] using ih

theorem mem_replaceFirst {key : String} {entry v : Variable} {vs : List Variable}
    (h : v ∈ replaceFirst key entry vs) : v = entry ∨ v ∈ vs := by
  induction vs with
  | nil => exact .inr h
  | cons w vs ih =>
    unfold replaceFirst at h
    split at h
    · exact (List.mem_cons.mp h).imp_right (List.mem_cons_of_mem _)
    · rcases List.mem_cons.mp h with rfl | h
      · exact .inr List.mem_cons_self
      · exact (ih h).imp_right (List.mem_cons_of_mem _)

/-! ## 4. Formulas -/

theorem Edit.apply_addFormula (f : Formula) (b : Book) : (addFormula f).apply b =
    if (b.findFormula f.name.text).isSome then
      (.error (.duplicateName f.name.text), b)
    else if (Text.trimmed f.expression.toList).isEmpty then
      (.error (.invalidDefinition f.name.text .noFormula), b)
    else
      (.ok (), { b with
        formulas := b.formulas ++ [{ f with expression := Text.trim f.expression }] }) := by
  simp only [addFormula, apply_bind, apply_get]
  split
  · rfl
  · split <;> rfl

theorem addFormula_atomic (f : Formula) : (Edit.addFormula f).Atomic := by
  intro b refusal
  rw [Edit.apply_addFormula]
  split
  · exact fun _ => rfl
  · split
    · exact fun _ => rfl
    · exact (nomatch ·)

/-- **Adding a formula** needs a new name and an expression; the formula comes last, trimmed. -/
theorem addFormula_eq_ok_iff : b.addFormula f = .ok b' ↔
    f.name.text ∉ namesOfFormulas b.formulas ∧ Text.trim f.expression ≠ "" ∧
      b' = { b with
        formulas := b.formulas ++ [{ f with expression := Text.trim f.expression }] } := by
  have taken := isSome_findFormula (b := b) f.name.valid
  unfold addFormula
  rw [Edit.outcome_eq_ok_iff, Edit.apply_addFormula]
  by_cases defined : f.name.text ∈ namesOfFormulas b.formulas
  · rw [if_pos (taken.mpr defined)]
    exact ⟨(nomatch ·), fun h => absurd defined h.1⟩
  · rw [if_neg (taken.not.mpr defined)]
    by_cases empty : Text.trim f.expression = ""
    · have nothing : (Text.trimmed f.expression.toList).isEmpty = true := by
        rw [Text.trim_eq_empty_iff.mp empty]
        rfl
      rw [if_pos nothing]
      exact ⟨(nomatch ·), fun h => absurd empty h.2.1⟩
    · have something : ¬ (Text.trimmed f.expression.toList).isEmpty = true := by
        rwa [List.isEmpty_iff, ← Text.trim_eq_empty_iff]
      rw [if_neg something]
      exact ⟨fun h => ⟨defined, empty, (Prod.mk.inj h).2.symm⟩, fun h => h.2.2 ▸ rfl⟩

section

variable {expression name : String} {lexemes : List Lexeme}
  (read : Lexeme.ofText .formula expression = .ok lexemes)

include read

/-- What is read is checked for the first name that is not there. -/
theorem validate_of_read : b.validate expression =
    match b.undefined? (Lexeme.references lexemes) with
    | some name => .error (.undefinedVariable name)
    | none => .ok () := by
  unfold validate
  rw [read]
  rfl

/-- A reference is to a variable of the book exactly if it names one. -/
theorem isNone_findVariable_iff (refers : name ∈ Lexeme.references lexemes) :
    (b.findVariable name).isNone = true ↔ name ∉ namesOf b.vars := by
  rw [← isSome_findVariable (Lexeme.isValid_of_mem_references read refers)]
  cases b.findVariable name <;> simp

theorem undefined?_eq_none_iff : b.undefined? (Lexeme.references lexemes) = none ↔
    ∀ name ∈ Lexeme.references lexemes, name ∈ namesOf b.vars := by
  unfold undefined?
  rw [List.find?_eq_none]
  refine forall₂_congr fun name refers => ?_
  rw [isNone_findVariable_iff read refers, not_not]

end

/-- **An expression passes the check** if it can be read and refers to names that are there. -/
theorem validate_eq_ok_iff {expression : String} : b.validate expression = .ok () ↔
    ∃ lexemes, Lexeme.ofText .formula expression = .ok lexemes ∧
      ∀ name ∈ Lexeme.references lexemes, name ∈ namesOf b.vars := by
  cases read : Lexeme.ofText .formula expression with
  | error fault =>
    unfold validate
    rw [read]
    exact ⟨(nomatch ·), fun ⟨_, h, _⟩ => nomatch h⟩
  | ok lexemes =>
    simp only [Except.ok.injEq, exists_eq_left', validate_of_read read,
      ← undefined?_eq_none_iff read]
    cases b.undefined? (Lexeme.references lexemes) <;> simp

theorem Edit.apply_addCheckedFormula (f : Formula) (b : Book) : (addCheckedFormula f).apply b =
    match b.validate f.expression with
    | .error fault => (.error (.failed (.plain fault)), b)
    | .ok () => (((addFormula f).apply b).1.mapError .rejected, ((addFormula f).apply b).2) := by
  simp only [addCheckedFormula, apply_bind, apply_get]
  cases b.validate f.expression with
  | error fault => rfl
  | ok => rfl

theorem addCheckedFormula_atomic (f : Formula) : (Edit.addCheckedFormula f).Atomic := by
  intro b refusal
  rw [Edit.apply_addCheckedFormula]
  cases b.validate f.expression with
  | error fault => exact fun _ => rfl
  | ok =>
    intro refused
    obtain ⟨rejection, rejected, -⟩ := mapError_eq_error refused
    exact addFormula_atomic f b rejection rejected

/-- **Adding a checked formula** is adding a formula whose expression passes the check. -/
theorem addCheckedFormula_eq_ok_iff : b.addCheckedFormula f = .ok b' ↔
    b.validate f.expression = .ok () ∧ b.addFormula f = .ok b' := by
  unfold addCheckedFormula addFormula
  rw [Edit.outcome_eq_ok_iff, Edit.outcome_eq_ok_iff, Edit.apply_addCheckedFormula]
  cases b.validate f.expression with
  | error fault => exact ⟨(nomatch ·), fun h => nomatch h.1⟩
  | ok =>
    rcases (Edit.addFormula f).apply b with ⟨_ | _, _⟩ <;> simp [Except.mapError]

end Book

/-! ## 5. Definitions files -/

/-- What is opened was made by adding entries. -/
theorem Definitions.exists_entries {contents : String} {b : Book} (h : ofText contents = .ok b) :
    ∃ entries : Entries, entries.toBook = .ok b := by
  unfold ofText ofDocument at h
  obtain ⟨root, -, h⟩ := bind_eq_ok h
  obtain ⟨entries, -, h⟩ := bind_eq_ok h
  obtain ⟨book, added, h⟩ := bind_eq_ok h
  split at h
  · cases h
    exact ⟨entries, mapError_eq_ok added⟩
  · cases h

/-- What every step keeps is kept by a chain of steps that succeeds. -/
theorem foldlM_keeps {ε α β : Type} {step : β → α → Except ε β} {P : β → Prop}
    (keeps : ∀ s a s', step s a = .ok s' → P s → P s') :
    ∀ {as : List α} {s s' : β}, as.foldlM step s = .ok s' → P s → P s'
  | [], _, _, h, hs => by
      cases h
      exact hs
  | a :: as, s, s', h, hs => by
      rw [List.foldlM_cons] at h
      obtain ⟨t, first, h⟩ := bind_eq_ok h
      exact foldlM_keeps keeps h (keeps s a t first hs)

namespace Book

/-- What holds of the empty book, and is kept where an entry is added, holds of what is opened. -/
theorem opened_induction {P : Book → Prop} (start : P empty)
    (var : ∀ b v b', b.addVariable v = .ok b' → P b → P b')
    (formula : ∀ b f b', b.addFormula f = .ok b' → P b → P b') {contents : String} {b : Book}
    (h : Definitions.ofText contents = .ok b) : P b := by
  obtain ⟨entries, made⟩ := Definitions.exists_entries h
  obtain ⟨withVars, first, second⟩ := bind_eq_ok made
  exact foldlM_keeps formula second (foldlM_keeps var first start)

/-! ## 6. Changes -/

/-- An operation that changes a book, with what it is given. -/
inductive Change
  | addVariable (v : Variable)
  | updateVariable (name text : String)
  | removeVariable (name : String)
  | addFormula (f : Formula)
  | addCheckedFormula (f : Formula)
  | removeFormula (name : String)
  /-- A definitions file with these contents is opened in place of the book. -/
  | openFile (contents : String)

/-- The book behind a change, whether the change was refused or not. A file that is not opened puts
nothing in place of the book. -/
def change (b : Book) : Change → Book
  | .addVariable v => ((Edit.addVariable v).apply b).2
  | .updateVariable name text => ((Edit.updateVariable name text).apply b).2
  | .removeVariable name => (b.removeVariable name).2
  | .addFormula f => ((Edit.addFormula f).apply b).2
  | .addCheckedFormula f => ((Edit.addCheckedFormula f).apply b).2
  | .removeFormula name => (b.removeFormula name).2
  | .openFile contents => (Definitions.ofText contents).toOption.getD b

/-- The book behind a list of changes. -/
def after (b : Book) (changes : List Change) : Book :=
  changes.foldl change b

/-- **What a step of every kind keeps is kept by all changes**: it is enough to look at the steps that
succeed, and opening a file is adding entries to the empty book. -/
theorem change_keeps {P : Book → Prop} (start : P empty)
    (addVariable : ∀ b v b', Book.addVariable b v = .ok b' → P b → P b')
    (updateVariable : ∀ b name text b', Book.updateVariable b name text = .ok b' → P b → P b')
    (removeVariable : ∀ b name, P b → P (Book.removeVariable b name).2)
    (addFormula : ∀ b f b', Book.addFormula b f = .ok b' → P b → P b')
    (removeFormula : ∀ b name, P b → P (Book.removeFormula b name).2) {b : Book} (h : P b)
    (c : Change) : P (b.change c) := by
  cases c with
  | addVariable v => exact (addVariable_atomic v).keeps h fun b' ok => addVariable b v b' ok h
  | updateVariable name text =>
    exact (updateVariable_atomic name text).keeps h fun b' ok => updateVariable b name text b' ok h
  | removeVariable name => exact removeVariable b name h
  | addFormula f => exact (addFormula_atomic f).keeps h fun b' ok => addFormula b f b' ok h
  | addCheckedFormula f =>
    exact (addCheckedFormula_atomic f).keeps h fun b' ok =>
      addFormula b f b' (addCheckedFormula_eq_ok_iff.mp ok).2 h
  | removeFormula name => exact removeFormula b name h
  | openFile contents =>
    show P ((Definitions.ofText contents).toOption.getD b)
    cases opened : Definitions.ofText contents with
    | error e => exact h
    | ok b' => exact opened_induction start addVariable addFormula opened

/-- What is kept by a change is kept by a list of changes. -/
theorem after_keeps {P : Book → Prop} (keeps : ∀ b c, P b → P (b.change c)) {b : Book} (h : P b)
    (changes : List Change) : P (b.after changes) := by
  induction changes generalizing b with
  | nil => exact h
  | cons c changes ih => exact ih (keeps b c h)

end Book

end Reckoner
