import Mathlib.Data.List.AList
import Reckoner.Proofs.Book.Invariant

/-!
# A book acts as two ordered maps

A book keeps its entries in two lists and searches them by the normal form of what it is given. This
file reads each list as a finite map from names that keeps the order in which the names were bound
(`NameMap`), and says what each operation makes of the maps a book shows (`Book.ActsAs`):

* an entry is found by what gives its name, in any case and with any white space around it;
* adding binds a new name behind the others, updating changes the text of a name in its place, and
  removing takes a name away; all else stays, and what is done to variables changes no formula;
* what gives no name finds, updates and removes nothing, and what fails changes nothing.

A search that stops at the first entry is a look-up in a map because names are distinct, and that holds
behind all changes: **behind any changes a book acts as the maps it shows**
(`Book.acts_as_maps_after`).
-/

namespace Reckoner

/-- A finite map from names that keeps the order in which the names were bound. -/
abbrev NameMap (α : Type) :=
  AList fun _ : Name => α

/-! ## 1. Entries that stand for a map -/

section

variable {ε α : Type} {name : ε → Name} {content : ε → α} {es es' : List ε} {m : NameMap α}
  {key : Name} {raw : String}

/-- An entry belongs to the normal form of its own name only. -/
theorem Book.isNamed_text (key other : Name) : isNamed key.text other = decide (key = other) := by
  rw [isNamed, Bool.eq_iff_iff, beq_iff_eq, decide_eq_true_iff, Name.ext_iff, eq_comm]

/-- Entries stand for a map: the same names, in the same order, with the same contents. -/
def StandsFor (name : ε → Name) (content : ε → α) (es : List ε) (m : NameMap α) : Prop :=
  m.entries = es.map fun e => ⟨name e, content e⟩

theorem exists_standsFor (content : ε → α) (distinct : (es.map name).Nodup) :
    ∃ m, StandsFor name content es m := by
  refine ⟨⟨es.map fun e => ⟨name e, content e⟩, ?_⟩, rfl⟩
  simpa [List.NodupKeys, List.keys, Function.comp_def] using distinct

namespace StandsFor

theorem mem_iff (h : StandsFor name content es m) : key ∈ m ↔ key ∈ es.map name := by
  rw [AList.mem_keys, AList.keys, h, List.keys, List.map_map]
  rfl

theorem lookup_iff (h : StandsFor name content es m) {x : α} :
    m.lookup key = some x ↔ ∃ e ∈ es, name e = key ∧ content e = x := by
  have entry : m.lookup key = some x ↔ ⟨key, x⟩ ∈ m.entries := AList.mem_lookup_iff
  rw [entry, h, List.mem_map]
  simp [Sigma.mk.injEq]

/-- Names that are distinct stand for one entry each. -/
theorem eq_of_name (h : StandsFor name content es m) {e e' : ε} (he : e ∈ es) (he' : e' ∈ es)
    (same : name e = name e') : e = e' := by
  have distinct : (es.map name).Nodup := by
    have keys := m.keys_nodup
    rwa [AList.keys, h, List.keys, List.map_map] at keys
  exact List.inj_on_of_nodup_map distinct he he' same

/-- The search for a normal form finds the entry whose name is given. -/
theorem find?_mem_iff (h : StandsFor name content es m) {e : ε} :
    (es.find? fun e => Book.isNamed (Name.normalize raw) (name e)) = some e ↔
      e ∈ es ∧ Name.ofText raw = .ok (name e) := by
  rw [Name.ofText_eq_ok_iff]
  constructor
  · intro found
    have named := List.find?_some found
    exact ⟨List.mem_of_find?_eq_some found, by simpa [Book.isNamed] using named⟩
  · rintro ⟨he, named⟩
    have hit : Book.isNamed (Name.normalize raw) (name e) = true := by simpa [Book.isNamed] using named
    cases found : es.find? fun e => Book.isNamed (Name.normalize raw) (name e) with
    | none => exact absurd hit (List.find?_eq_none.mp found e he)
    | some e' =>
      have named' : (name e').text = Name.normalize raw := by
        simpa [Book.isNamed] using List.find?_some found
      have same : name e' = name e := Name.ext (named'.trans named.symm)
      rw [h.eq_of_name (List.mem_of_find?_eq_some found) he same]

/-- A name that is bound to nothing is not found. -/
theorem find?_eq_none (h : StandsFor name content es m) (given : Name.ofText raw = .ok key)
    (free : m.lookup key = none) :
    (es.find? fun e => Book.isNamed (Name.normalize raw) (name e)) = none := by
  cases found : es.find? fun e => Book.isNamed (Name.normalize raw) (name e) with
  | none => rfl
  | some e =>
    obtain ⟨he, given'⟩ := h.find?_mem_iff.mp found
    cases given.symm.trans given'
    cases free.symm.trans (h.lookup_iff.mpr ⟨e, he, rfl, rfl⟩)

/-- What gives no name finds nothing. -/
theorem find?_unnamed (h : StandsFor name content es m) {rejection : Rejection}
    (invalid : Name.ofText raw = .error rejection) :
    (es.find? fun e => Book.isNamed (Name.normalize raw) (name e)) = none := by
  cases found : es.find? fun e => Book.isNamed (Name.normalize raw) (name e) with
  | none => rfl
  | some e => cases invalid.symm.trans (h.find?_mem_iff.mp found).2

/-- What gives no name removes nothing. -/
theorem eraseP_unnamed (h : StandsFor name content es m) {rejection : Rejection}
    (invalid : Name.ofText raw = .error rejection) :
    (es.eraseP fun e => Book.isNamed (Name.normalize raw) (name e)) = es :=
  List.eraseP_of_forall_not (List.find?_eq_none.mp (h.find?_unnamed invalid))

/-- Behind the others, an entry with a new name binds it. -/
theorem append (h : StandsFor name content es m) {e : ε} (new : name e ∉ m) :
    ∃ m' : NameMap α, m'.entries = m.entries ++ [⟨name e, content e⟩] ∧
      StandsFor name content (es ++ [e]) m' := by
  have distinct : (m.entries ++ [(⟨name e, content e⟩ : (_ : Name) × α)]).NodupKeys := by
    have keys : (m.keys.concat (name e)).Nodup := List.Nodup.concat new m.keys_nodup
    simpa [List.NodupKeys, AList.keys, List.keys] using keys
  refine ⟨⟨_, distinct⟩, rfl, ?_⟩
  show m.entries ++ _ = _
  rw [h, List.map_append]
  rfl

/-- The first entry of a name is the only one: without it the name is gone. -/
theorem eraseP (h : StandsFor name content es m) (key : Name) :
    StandsFor name content (es.eraseP fun e => Book.isNamed key.text (name e)) (m.erase key) := by
  show m.entries.kerase key = _
  rw [h, List.kerase, List.eraseP_map]
  simp only [Function.comp_def, Book.isNamed_text]

section

variable (determined : ∀ e e' : ε, name e = name e' → content e = content e' → e = e')

include determined

/-- **The search for a normal form is the look-up of the name**, where entries are no more than names
with contents. -/
theorem find?_iff (h : StandsFor name content es m) {e : ε} :
    (es.find? fun e => Book.isNamed (Name.normalize raw) (name e)) = some e ↔
      Name.ofText raw = .ok (name e) ∧ m.lookup (name e) = some (content e) := by
  have stored : m.lookup (name e) = some (content e) ↔ e ∈ es := by
    rw [h.lookup_iff]
    exact ⟨fun ⟨e', he', named, same⟩ => determined e' e named same ▸ he', fun he => ⟨e, he, rfl, rfl⟩⟩
  rw [h.find?_mem_iff, stored, and_comm]

/-- A map stands for one list of entries. -/
theorem unique (h : StandsFor name content es m) (h' : StandsFor name content es' m) : es = es' := by
  refine List.map_injective_iff.mpr (fun e e' same => ?_) (h.symm.trans h')
  have parts := Sigma.mk.inj same
  exact determined e e' parts.1 (eq_of_heq parts.2)

end

end StandsFor

end

/-! ## 2. What is replaced -/

/-- What a variable is besides its name. -/
def Variable.content (v : Variable) : Kind × String :=
  (v.kind, v.text)

theorem Variable.eq_of_content (v w : Variable) (named : v.name = w.name)
    (same : v.content = w.content) : v = w := by
  cases v
  cases w
  cases named
  cases same
  rfl

theorem Formula.eq_of_content (f g : Formula) (named : f.name = g.name)
    (same : f.expression = g.expression) : f = g := by
  cases f
  cases g
  cases named
  cases same
  rfl

/-- **A variable put in the place of one with its name changes what the name stands for.** -/
theorem StandsFor.replaceFirst {vs : List Variable} {m : NameMap (Kind × String)}
    (h : StandsFor Variable.name Variable.content vs m) (w : Variable) :
    StandsFor Variable.name Variable.content (Book.replaceFirst w.name.text w vs)
      (m.replace w.name w.content) := by
  have each : (Book.replaceFirst w.name.text w vs).map
        (fun v => (⟨v.name, v.content⟩ : (_ : Name) × (Kind × String))) =
      (vs.map fun v => ⟨v.name, v.content⟩).kreplace w.name w.content := by
    clear h
    induction vs with
    | nil => rfl
    | cons v vs ih =>
      unfold Book.replaceFirst
      rw [Book.isNamed_text, List.map_cons]
      by_cases named : w.name = v.name
      · rw [if_pos (decide_eq_true named), List.map_cons]
        refine (List.lookmap_cons_some _ _ ?_).symm
        exact if_pos named
      · rw [if_neg (by simpa using named), List.map_cons, ih]
        refine (List.lookmap_cons_none _ _ ?_).symm
        exact if_neg named
  show m.entries.kreplace _ _ = _
  rw [each, h]

/-! ## 3. Books -/

namespace Book

/-- **A book shows two maps**, one of its variables and one of its formulas. -/
structure Shows (b : Book) (vars : NameMap (Kind × String)) (formulas : NameMap String) : Prop where
  vars : StandsFor Variable.name Variable.content b.vars vars
  formulas : StandsFor Formula.name Formula.expression b.formulas formulas

/-- A change that reports an error. -/
def Fails (b : Book) : Change → Prop
  | .addVariable v => ∃ rejection, b.addVariable v = .error rejection
  | .updateVariable raw text => ∃ rejection, b.updateVariable raw text = .error rejection
  | .addFormula f => ∃ rejection, b.addFormula f = .error rejection
  | .addCheckedFormula f => ∃ refusal, b.addCheckedFormula f = .error refusal
  | .openFile contents => ∃ error, Definitions.ofText contents = .error error
  | .removeVariable _ | .removeFormula _ => False

/-- **A book acts as the maps it shows.** -/
structure ActsAs (b : Book) (vars : NameMap (Kind × String)) (formulas : NameMap String) : Prop where
  findVariable : ∀ raw v, b.findVariable raw = some v ↔
    Name.ofText raw = .ok v.name ∧ vars.lookup v.name = some (v.kind, v.text)
  findFormula : ∀ raw f, b.findFormula raw = some f ↔
    Name.ofText raw = .ok f.name ∧ formulas.lookup f.name = some f.expression
  /-- A variable that is added comes last. -/
  addVariable : ∀ v b', b.addVariable v = .ok b' ↔ v.name ∉ vars ∧ v.defect? = none ∧
    ∃ vars' : NameMap (Kind × String),
      vars'.entries = vars.entries ++ [⟨v.name, v.kind, Text.trim v.text⟩] ∧ b'.Shows vars' formulas
  /-- A variable that is updated keeps its kind and its place. -/
  updateVariable : ∀ raw text b', b.updateVariable raw text = .ok b' ↔ ∃ name kind old,
    Name.ofText raw = .ok name ∧ vars.lookup name = some (kind, old) ∧
      Variable.defect? ⟨name, kind, Text.trim text⟩ = none ∧
      b'.Shows (vars.replace name (kind, Text.trim text)) formulas
  /-- No spelling of a name finds the variable that was removed. -/
  removeVariable : ∀ raw name, Name.ofText raw = .ok name →
    (b.removeVariable raw).1 = b.findVariable raw ∧
      (b.removeVariable raw).2.Shows (vars.erase name) formulas ∧
      ∀ other, Name.ofText other = .ok name → (b.removeVariable raw).2.findVariable other = none
  /-- A formula that is added comes last. -/
  addFormula : ∀ f b', b.addFormula f = .ok b' ↔ f.name ∉ formulas ∧ Text.trim f.expression ≠ "" ∧
    ∃ formulas' : NameMap String,
      formulas'.entries = formulas.entries ++ [⟨f.name, Text.trim f.expression⟩] ∧
        b'.Shows vars formulas'
  addCheckedFormula : ∀ f b', b.addCheckedFormula f = .ok b' ↔
    b.validate f.expression = .ok () ∧ b.addFormula f = .ok b'
  /-- No spelling of a name finds the formula that was removed. -/
  removeFormula : ∀ raw name, Name.ofText raw = .ok name →
    (b.removeFormula raw).1 = b.findFormula raw ∧
      (b.removeFormula raw).2.Shows vars (formulas.erase name) ∧
      ∀ other, Name.ofText other = .ok name → (b.removeFormula raw).2.findFormula other = none
  /-- What gives no name finds, updates and removes nothing. -/
  unnamed : ∀ raw rejection, Name.ofText raw = .error rejection →
    b.findVariable raw = none ∧ b.findFormula raw = none ∧
      (∀ text, b.updateVariable raw text = .error (.notFound (Name.normalize raw))) ∧
      b.removeVariable raw = (none, b) ∧ b.removeFormula raw = (none, b)
  failed : ∀ c, b.Fails c → b.change c = b

section

variable {b b' : Book} {vars vars' : NameMap (Kind × String)} {formulas formulas' : NameMap String}
  {v : Variable} {f : Formula} {raw text : String} {name : Name}

theorem Sound.exists_shows (h : b.Sound) : ∃ vars formulas, b.Shows vars formulas := by
  have distinct : (b.vars.map Variable.name).Nodup := by
    refine List.Nodup.of_map Name.text ?_
    simpa [namesOf, Function.comp_def] using h.distinct
  have distinct' : (b.formulas.map Formula.name).Nodup := by
    refine List.Nodup.of_map Name.text ?_
    simpa [namesOfFormulas, Function.comp_def] using h.distinct'
  obtain ⟨vars, hv⟩ := exists_standsFor Variable.content distinct
  obtain ⟨formulas, hf⟩ := exists_standsFor Formula.expression distinct'
  exact ⟨vars, formulas, hv, hf⟩

/-- The maps that a book shows determine it. -/
theorem Shows.unique (h : b.Shows vars formulas) (h' : b'.Shows vars formulas) : b = b' := by
  have sameVars : b.vars = b'.vars := StandsFor.unique Variable.eq_of_content h.vars h'.vars
  have sameFormulas : b.formulas = b'.formulas :=
    StandsFor.unique Formula.eq_of_content h.formulas h'.formulas
  cases b
  cases b'
  cases sameVars
  cases sameFormulas
  rfl

theorem mem_namesOf_iff (h : b.Shows vars formulas) : name.text ∈ namesOf b.vars ↔ name ∈ vars := by
  rw [h.vars.mem_iff, namesOf, ← Function.comp_def Name.text Variable.name, ← List.map_map]
  exact List.mem_map_of_injective fun _ _ => Name.ext

theorem mem_namesOfFormulas_iff (h : b.Shows vars formulas) :
    name.text ∈ namesOfFormulas b.formulas ↔ name ∈ formulas := by
  rw [h.formulas.mem_iff, namesOfFormulas, ← Function.comp_def Name.text Formula.name, ← List.map_map]
  exact List.mem_map_of_injective fun _ _ => Name.ext

/-- **A variable is found by what gives its name.** -/
theorem Shows.findVariable_iff (h : b.Shows vars formulas) : b.findVariable raw = some v ↔
    Name.ofText raw = .ok v.name ∧ vars.lookup v.name = some (v.kind, v.text) :=
  h.vars.find?_iff Variable.eq_of_content

/-- **A formula is found by what gives its name.** -/
theorem Shows.findFormula_iff (h : b.Shows vars formulas) : b.findFormula raw = some f ↔
    Name.ofText raw = .ok f.name ∧ formulas.lookup f.name = some f.expression :=
  h.formulas.find?_iff Formula.eq_of_content

/-! ## 4. Operations -/

/-- **Adding a variable** binds its name, which has to be new, behind the others. -/
theorem Shows.addVariable_iff (h : b.Shows vars formulas) : b.addVariable v = .ok b' ↔
    v.name ∉ vars ∧ v.defect? = none ∧ ∃ vars' : NameMap (Kind × String),
      vars'.entries = vars.entries ++ [⟨v.name, v.kind, Text.trim v.text⟩] ∧
        b'.Shows vars' formulas := by
  rw [addVariable_eq_ok_iff, mem_namesOf_iff h]
  refine and_congr_right fun new => and_congr_right fun _ => ?_
  obtain ⟨bound, entries, shown⟩ := h.vars.append (e := { v with text := Text.trim v.text }) new
  constructor
  · rintro rfl
    exact ⟨bound, entries, shown, h.formulas⟩
  · rintro ⟨vars', entries', shown'⟩
    have same : vars' = bound := AList.ext (entries'.trans entries.symm)
    subst same
    exact shown'.unique ⟨shown, h.formulas⟩

/-- **Adding a formula** binds its name, which has to be new, behind the others. -/
theorem Shows.addFormula_iff (h : b.Shows vars formulas) : b.addFormula f = .ok b' ↔
    f.name ∉ formulas ∧ Text.trim f.expression ≠ "" ∧ ∃ formulas' : NameMap String,
      formulas'.entries = formulas.entries ++ [⟨f.name, Text.trim f.expression⟩] ∧
        b'.Shows vars formulas' := by
  rw [addFormula_eq_ok_iff, mem_namesOfFormulas_iff h]
  refine and_congr_right fun new => and_congr_right fun _ => ?_
  obtain ⟨bound, entries, shown⟩ :=
    h.formulas.append (e := { f with expression := Text.trim f.expression }) new
  constructor
  · rintro rfl
    exact ⟨bound, entries, h.vars, shown⟩
  · rintro ⟨formulas', entries', shown'⟩
    have same : formulas' = bound := AList.ext (entries'.trans entries.symm)
    subst same
    exact shown'.unique ⟨h.vars, shown⟩

/-- **Updating a variable** changes what its name stands for, and of that the text only. -/
theorem Shows.updateVariable_iff (h : b.Shows vars formulas) : b.updateVariable raw text = .ok b' ↔
    ∃ name kind old, Name.ofText raw = .ok name ∧ vars.lookup name = some (kind, old) ∧
      Variable.defect? ⟨name, kind, Text.trim text⟩ = none ∧
      b'.Shows (vars.replace name (kind, Text.trim text)) formulas := by
  rw [updateVariable_eq_ok_iff]
  have updated (v : Variable) (given : Name.ofText raw = .ok v.name) :
      ({ b with vars := replaceFirst (Name.normalize raw) { v with text := Text.trim text } b.vars } :
        Book).Shows (vars.replace v.name (v.kind, Text.trim text)) formulas := by
    rw [← Name.ofText_eq_ok_iff.mp given]
    exact ⟨h.vars.replaceFirst { v with text := Text.trim text }, h.formulas⟩
  constructor
  · rintro ⟨v, found, usable, rfl⟩
    obtain ⟨given, stored⟩ := h.findVariable_iff.mp found
    exact ⟨v.name, v.kind, v.text, given, stored, usable, updated v given⟩
  · rintro ⟨name, kind, old, given, stored, usable, shown⟩
    have found : b.findVariable raw = some ⟨name, kind, old⟩ := h.findVariable_iff.mpr ⟨given, stored⟩
    exact ⟨⟨name, kind, old⟩, found, usable, shown.unique (updated ⟨name, kind, old⟩ given)⟩

/-- **Removing a variable** takes its name away. -/
theorem Shows.removeVariable (h : b.Shows vars formulas) (given : Name.ofText raw = .ok name) :
    (b.removeVariable raw).2.Shows (vars.erase name) formulas := by
  have erased := h.vars.eraseP name
  rw [Name.ofText_eq_ok_iff.mp given] at erased
  exact ⟨erased, h.formulas⟩

/-- **Removing a formula** takes its name away. -/
theorem Shows.removeFormula (h : b.Shows vars formulas) (given : Name.ofText raw = .ok name) :
    (b.removeFormula raw).2.Shows vars (formulas.erase name) := by
  have erased := h.formulas.eraseP name
  rw [Name.ofText_eq_ok_iff.mp given] at erased
  exact ⟨h.vars, erased⟩

/-- **What gives no name** finds, updates and removes nothing. -/
theorem Shows.unnamed (h : b.Shows vars formulas) {rejection : Rejection}
    (invalid : Name.ofText raw = .error rejection) :
    b.findVariable raw = none ∧ b.findFormula raw = none ∧
      (∀ text, b.updateVariable raw text = .error (.notFound (Name.normalize raw))) ∧
      b.removeVariable raw = (none, b) ∧ b.removeFormula raw = (none, b) := by
  have noVariable : b.findVariable raw = none := h.vars.find?_unnamed invalid
  have noFormula : b.findFormula raw = none := h.formulas.find?_unnamed invalid
  refine ⟨noVariable, noFormula, fun text => ?_, ?_, ?_⟩
  · refine Edit.outcome_eq_error_iff.mpr ?_
    rw [Edit.apply_updateVariable, noVariable]
  · unfold Book.removeVariable
    dsimp only
    rw [noVariable, h.vars.eraseP_unnamed invalid]
  · unfold Book.removeFormula
    dsimp only
    rw [noFormula, h.formulas.eraseP_unnamed invalid]

/-- **What fails changes nothing**: each operation is made in full or not at all. -/
theorem change_of_fails {c : Change} (fails : b.Fails c) : b.change c = b := by
  cases c with
  | addVariable v => exact (addVariable_atomic v).of_refused fails
  | updateVariable raw text => exact (updateVariable_atomic raw text).of_refused fails
  | addFormula f => exact (addFormula_atomic f).of_refused fails
  | addCheckedFormula f => exact (addCheckedFormula_atomic f).of_refused fails
  | openFile contents =>
    obtain ⟨error, fails⟩ := fails
    show (Definitions.ofText contents).toOption.getD b = b
    rw [fails]
    rfl
  | removeVariable raw => exact fails.elim
  | removeFormula raw => exact fails.elim

/-- **A book acts as the maps it shows.** -/
theorem Shows.actsAs (h : b.Shows vars formulas) : b.ActsAs vars formulas where
  findVariable _ _ := h.findVariable_iff
  findFormula _ _ := h.findFormula_iff
  addVariable _ _ := h.addVariable_iff
  updateVariable _ _ _ := h.updateVariable_iff
  removeVariable _ name given :=
    ⟨rfl, h.removeVariable given, fun _ given' =>
      (h.removeVariable given).vars.find?_eq_none given' (AList.lookup_erase name vars)⟩
  addFormula _ _ := h.addFormula_iff
  addCheckedFormula _ _ := addCheckedFormula_eq_ok_iff
  removeFormula _ name given :=
    ⟨rfl, h.removeFormula given, fun _ given' =>
      (h.removeFormula given).formulas.find?_eq_none given' (AList.lookup_erase name formulas)⟩
  unnamed _ _ := h.unnamed
  failed _ := change_of_fails

end

/-- **A book is two ordered maps from names.** A text gives a name whatever its case and the white space
around it; and behind any changes, from the empty book on, a book shows a map of its variables and one
of its formulas, and acts as they do. -/
theorem acts_as_maps_after :
    (∀ raw name, Name.ofText raw = .ok name ↔ name.SpelledBy raw) ∧
      ∀ changes : List Change, ∃ vars formulas,
        (empty.after changes).Shows vars formulas ∧ (empty.after changes).ActsAs vars formulas := by
  refine ⟨fun _ _ => Name.ofText_eq_ok_iff_spelledBy, fun changes => ?_⟩
  obtain ⟨vars, formulas, shown⟩ := (sound_after changes).exists_shows
  exact ⟨vars, formulas, shown, shown.actsAs⟩

end Book

end Reckoner
