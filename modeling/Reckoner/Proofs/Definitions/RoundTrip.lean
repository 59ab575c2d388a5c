import Reckoner.Definitions.Writing
import Reckoner.Proofs.Book.Invariant
import Reckoner.Proofs.Json.Documents

/-!
# What is saved is opened again

A book is written as a JSON value (`spelled_toText`), whose tree is read as the entries of the book
(`readBook_bookValue`). Adding these entries one by one looks at each again: names are put into their
normal form, texts are trimmed, and repeated names are refused. Behind any changes a book holds only
what passes all that unchanged, so **opening what was saved gives the same book**
(`ofText_toText_after`).
-/

namespace Reckoner.Definitions

open Json (Value Token)

/-! ## 1. A book as a value -/

/-- An object whose members are texts. -/
def record (members : List (String × String)) : Value :=
  .object (members.map fun m => (m.1, .text m.2))

/-- The members of a variable. -/
def variableMembers (v : Variable) : List (String × String) :=
  [("name", v.name.text), ("kind", kindWord v.kind), ("expression", v.text)]

/-- The members of a formula. -/
def formulaMembers (f : Formula) : List (String × String) :=
  [("name", f.name.text), ("expression", f.expression)]

/-- A book. -/
def bookValue (b : Book) : Value :=
  .object [("variables", .list (b.vars.map fun v => record (variableMembers v))),
    ("formulas", .list (b.formulas.map fun f => record (formulaMembers f)))]

/-! ## 2. Writing -/

theorem spelled_quote (s : String) : Token.Spelled (Json.Text.quote s).toList [.text (.ok s)] := by
  have spelled := Token.Spelled.text (Json.Text.spelled_encode s.toList) .nil
  rw [String.ofList_toList] at spelled
  simpa [Json.Text.quote, Json.Text.encode] using spelled

/-- What stands between a key and its value. -/
theorem spelled_colon : Token.Spelled ": ".toList [.colon] :=
  Token.spelled_marks rfl

/-- What stands between two members or two entries. -/
theorem spelled_comma : Token.Spelled ",\n".toList [.comma] :=
  Token.spelled_marks rfl

theorem spelled_member (m : String × String) :
    Token.Spelled (member m.1 m.2).toList (Value.memberTokens (m.1, .text m.2)) := by
  have indent : Token.Spelled "      ".toList [] := Token.spelled_marks rfl
  simp only [member, String.toList_append]
  exact ((indent.append (spelled_quote m.1)).append spelled_colon).append (spelled_quote m.2)

theorem spelled_entry (members : List (String × String)) :
    Token.Spelled (entry (members.map fun m => member m.1 m.2)).toList (record members).tokens := by
  have opening : Token.Spelled "    \x7b\n".toList [.openObject] := Token.spelled_marks rfl
  have closing : Token.Spelled "\n    \x7d".toList [.closeObject] := Token.spelled_marks rfl
  have inside := Token.Spelled.intercalate spelled_comma spelled_member members
  have spelled := (opening.append inside).append closing
  simpa [entry, record, Value.object, Value.membersTokens, String.toList_intercalate,
    Function.comp_def] using spelled

theorem spelled_entries {α : Type} (members : α → List (String × String)) (key : String)
    (as : List α) :
    Token.Spelled
      (entries key (as.map fun a => entry ((members a).map fun m => member m.1 m.2))).toList
      (Value.memberTokens (key, .list (as.map fun a => record (members a)))) := by
  have indent : Token.Spelled "  ".toList [] := Token.spelled_marks rfl
  have before := (indent.append (spelled_quote key)).append spelled_colon
  cases as with
  | nil =>
    have none : Token.Spelled "[]".toList [.openList, .closeList] := Token.spelled_marks rfl
    simpa [entries, Value.memberTokens, Value.list, Value.itemTokens] using before.append none
  | cons a as =>
    have opening : Token.Spelled "[\n".toList [.openList] := Token.spelled_marks rfl
    have closing : Token.Spelled "\n  ]".toList [.closeList] := Token.spelled_marks rfl
    have inside := Token.Spelled.intercalate spelled_comma (fun a => spelled_entry (members a)) (a :: as)
    have spelled := before.append ((opening.append inside).append closing)
    simpa [entries, Value.memberTokens, Value.list, Value.itemTokens, String.toList_intercalate,
      Function.comp_def] using spelled

/-- **A book is written as its value.** -/
theorem spelled_toText (b : Book) : Token.Spelled (toText b).toList (bookValue b).tokens := by
  have opening : Token.Spelled "\x7b\n".toList [.openObject] := Token.spelled_marks rfl
  have closing : Token.Spelled "\n\x7d".toList [.closeObject] := Token.spelled_marks rfl
  have vars : Token.Spelled (entries "variables" (b.vars.map variableEntry)).toList _ :=
    spelled_entries variableMembers "variables" b.vars
  have formulas : Token.Spelled (entries "formulas" (b.formulas.map formulaEntry)).toList _ :=
    spelled_entries formulaMembers "formulas" b.formulas
  have spelled := (((opening.append vars).append spelled_comma).append formulas).append closing
  simpa [toText, bookValue, Value.object, Value.membersTokens, List.intercalate_cons_cons]
    using spelled

/-! ## 3. Reading -/

section

variable {name : Option Name} {fields : List (Field × Json.Node)} {members : List Json.Member}

theorem kindOfWord_kindWord (k : Kind) : kindOfWord (kindWord k) = .ok k := by
  cases k <;> rfl

theorem readName_text (n : Name) : readName (.text (.ok n.text)) = .ok n := by
  unfold readName readText
  simp only [bind, Except.bind, Name.ofText_text]
  rfl

/-- The name of a variable is read where it stands. -/
theorem readMembers_name (text : String) :
    readMembers none none fields (Value.memberNode ("name", .text text) :: members) =
      readName (.text (.ok text)) >>= fun n => readMembers none (some n) fields members := by
  rw [Value.memberNode, readMembers]
  simp only [readKey, present, Value.text, Except.mapError, bind, Except.bind, if_true,
    Option.isSome_none, Bool.false_eq_true, if_false]

/-- Kind and expression of a variable are kept until all members are known. -/
theorem readMembers_field (field : Field) (text : String) :
    readMembers none name fields (Value.memberNode (field.key, .text text) :: members) =
      readMembers none name ((field, .text (.ok text)) :: fields) members := by
  have other : field.key ≠ "name" := by cases field <;> decide
  have known : Field.ofKey? field.key = some field := by cases field <;> decide
  rw [Value.memberNode, readMembers]
  simp only [readKey, present, Value.text, Except.mapError, Except.map, bind, Except.bind, keep,
    if_neg other, known]

theorem readFormulaMembers_name {expression : Option String} (text : String) :
    readFormulaMembers none none expression (Value.memberNode ("name", .text text) :: members) =
      readName (.text (.ok text)) >>= fun n => readFormulaMembers none (some n) expression members := by
  rw [Value.memberNode, readFormulaMembers]
  simp only [readKey, present, Value.text, Except.mapError, bind, Except.bind, if_true,
    Option.isSome_none, Bool.false_eq_true, if_false]

theorem readFormulaMembers_expression (text : String) :
    readFormulaMembers none name none (Value.memberNode ("expression", .text text) :: members) =
      readFormulaMembers none name (some text) members := by
  have other : "expression" ≠ "name" := by decide
  rw [Value.memberNode, readFormulaMembers]
  simp only [readKey, present, Value.text, Except.mapError, bind, Except.bind, if_true, if_neg other,
    Option.isSome_none, Bool.false_eq_true, if_false, readText]

/-- **A variable is read from its members.** -/
theorem readVariable_record (v : Variable) :
    readVariable (record (variableMembers v)).node = .ok v := by
  have node : (record (variableMembers v)).node =
      .object ((variableMembers v).map fun m => Value.memberNode (m.1, .text m.2)) none := rfl
  have read : readMembers none none []
        ((variableMembers v).map fun m => Value.memberNode (m.1, .text m.2)) =
      .ok (some v.name,
        [(.kind, .text (.ok (kindWord v.kind))), (.expression, .text (.ok v.text))]) := by
    refine (readMembers_name v.name.text).trans ?_
    rw [readName_text]
    refine (readMembers_field .kind (kindWord v.kind)).trans ?_
    exact readMembers_field .expression v.text
  rw [node, readVariable, read]
  simp only [bind, Except.bind, readDefinition, readKind, kindOfWord_kindWord, Except.mapError,
    readText, noMore]
  rfl

/-- **A formula is read from its members.** -/
theorem readFormula_record (f : Formula) :
    readFormula (record (formulaMembers f)).node = .ok f := by
  refine (readFormulaMembers_name f.name.text).trans ?_
  rw [readName_text]
  exact readFormulaMembers_expression f.expression

end

/-- A list of entries is read if each entry is. -/
theorem readEntries_list {α : Type} {read : Json.Node → Except Error α} {value : α → Value}
    (h : ∀ a, read (value a).node = .ok a) (as : List α) :
    readEntries read (Value.list (as.map value)).node = .ok as := by
  have items : (as.map value |>.map Value.node).mapM read = .ok as := by
    induction as with
    | nil => rfl
    | cons a as ih =>
      rw [List.map_cons, List.map_cons, List.mapM_cons, h a, ih]
      rfl
  unfold readEntries Value.list
  simp only [items]
  rfl

/-- **The tree of a book is read as its entries.** -/
theorem readBook_bookValue (b : Book) : readBook (bookValue b).node = .ok ⟨b.vars, b.formulas⟩ := by
  have vars := readEntries_list readVariable_record b.vars
  have formulas := readEntries_list readFormula_record b.formulas
  have other : "formulas" ≠ "variables" := by decide
  unfold bookValue Value.object
  simp only [List.map_cons, List.map_nil, Value.memberNode, readBook, readBookMembers, readKey,
    present, Except.mapError, bind, Except.bind, if_true, if_neg other, Option.isSome_none,
    Bool.false_eq_true, if_false, vars, formulas]
  rfl

/-! ## 4. Adding the entries -/

/-- Where each item can be added behind those before it, all are added, in their order. -/
theorem foldlM_behind {ε α β : Type} {add : β → α → Except ε β} (holding : List α → β) :
    ∀ {items before : List α},
      (∀ done item rest, before ++ items = done ++ item :: rest →
        add (holding done) item = .ok (holding (done ++ [item]))) →
      items.foldlM add (holding before) = .ok (holding (before ++ items))
  | [], before, _ => by
      rw [List.append_nil]
      rfl
  | item :: items, before, step => by
      have added : add (holding before) item = .ok (holding (before ++ [item])) :=
        step before item items rfl
      have others : items.foldlM add (holding (before ++ [item])) = _ :=
        foldlM_behind holding (by simpa using step)
      rw [List.foldlM_cons, added]
      refine others.trans ?_
      rw [List.append_assoc, List.singleton_append]

/-- An item of a list without repetitions does not stand before itself. -/
theorem not_mem_of_nodup {α : Type} {before behind : List α} {a : α}
    (distinct : (before ++ a :: behind).Nodup) : a ∉ before :=
  fun h => (List.nodup_cons.mp (List.nodup_middle.mp distinct)).1 (List.mem_append_left _ h)

section

variable {b : Book}

/-- A variable of a sound book is added as it is, behind those before it. -/
theorem addVariable_of_sound (h : b.Sound) {before behind : List Variable} {v : Variable}
    (stands : b.vars = before ++ v :: behind) (formulas : List Formula) :
    Book.addVariable ⟨before, formulas⟩ v = .ok ⟨before ++ [v], formulas⟩ := by
  have kept : v.Kept := h.kept v (by simp [stands])
  have distinct : (namesOf before ++ v.name.text :: namesOf behind).Nodup := by
    simpa [namesOf, stands] using h.distinct
  have same : { v with text := Text.trim v.text } = v := by rw [kept.bare.trim_eq]
  exact Book.addVariable_eq_ok_iff.mpr
    ⟨not_mem_of_nodup distinct, kept.defect?_eq_none, by rw [same]⟩

/-- A formula of a sound book is added as it is, behind those before it. -/
theorem addFormula_of_sound (h : b.Sound) {before behind : List Formula} {f : Formula}
    (stands : b.formulas = before ++ f :: behind) (vars : List Variable) :
    Book.addFormula ⟨vars, before⟩ f = .ok ⟨vars, before ++ [f]⟩ := by
  have kept : f.Kept := h.kept' f (by simp [stands])
  have distinct : (namesOfFormulas before ++ f.name.text :: namesOfFormulas behind).Nodup := by
    simpa [namesOfFormulas, stands] using h.distinct'
  have same : { f with expression := Text.trim f.expression } = f := by rw [kept.bare.trim_eq]
  refine Book.addFormula_eq_ok_iff.mpr ⟨not_mem_of_nodup distinct, ?_, by rw [same]⟩
  rw [kept.bare.trim_eq]
  exact kept.nonempty

/-- **The entries of a sound book make that book.** -/
theorem toBook_of_sound (h : b.Sound) : Entries.toBook ⟨b.vars, b.formulas⟩ = .ok b := by
  have vars : b.vars.foldlM Book.addVariable ⟨[], []⟩ = .ok ⟨b.vars, []⟩ :=
    foldlM_behind (fun vs => Book.mk vs []) fun _ _ _ stands => addVariable_of_sound h stands []
  have formulas : b.formulas.foldlM Book.addFormula ⟨b.vars, []⟩ = .ok ⟨b.vars, b.formulas⟩ :=
    foldlM_behind (Book.mk b.vars) fun _ _ _ stands => addFormula_of_sound h stands b.vars
  unfold Entries.toBook Book.empty
  rw [vars]
  exact formulas

end

/-! ## 5. Saving and opening -/

/-- A sound book is opened as it was saved. -/
theorem ofText_toText {b : Book} (h : b.Sound) : ofText (toText b) = .ok b := by
  unfold ofText ofDocument
  rw [Json.Document.ofText_spelled (spelled_toText b)]
  simp only [Except.mapError, bind, Except.bind, readBook_bookValue, toBook_of_sound h]
  rfl

/-- **Saving and opening is the identity**: behind any changes, from the empty book on, opening what
is saved succeeds and gives the same book, whatever characters its expressions hold. -/
theorem ofText_toText_after (changes : List Book.Change) :
    ofText (toText (Book.empty.after changes)) = .ok (Book.empty.after changes) :=
  ofText_toText (Book.sound_after changes)

end Reckoner.Definitions
