import Mathlib
import Reckoner.Proofs.Definitions.RoundTrip

/-!
# Opening a file is entering it by hand

A file gives the entries of a book as texts, in an object whose members may come in any order, in any
spelling (`Encodes`). Reading it looks at the names while it goes on, in the order of the document;
all else is looked at afterwards, when the entries are added, variables before formulas. By hand the
entries are made first and added then (`entered`). **The two give the same book, or fail the same
way** (`ofText_iff_entered`): with the first text that is no name, in the order of the document, or
else with the first entry that cannot be added, whatever the order of the document is.

The members of an entry are read by their keys, so what is shown of one order holds for all; the
lists may be left out where they are empty.
-/

namespace Reckoner.Definitions

open Json (Value Token)

/-! ## 1. Entering by hand -/

/-- A variable as it is given. -/
structure GivenVariable where
  name : String
  kind : Kind
  text : String

/-- A formula as it is given. -/
structure GivenFormula where
  name : String
  expression : String

/-- The variable that is given. -/
def GivenVariable.make (g : GivenVariable) : Except Rejection Variable :=
  Variable.make g.kind g.name g.text

/-- The formula that is given. -/
def GivenFormula.make (g : GivenFormula) : Except Rejection Formula :=
  Formula.make g.name g.expression

/-- **Entering by hand**: all entries are made; then the variables are added to the empty book one by
one, and the formulas behind them. -/
def entered (vars : List GivenVariable) (formulas : List GivenFormula) : Except Rejection Book := do
  let vars ← vars.mapM GivenVariable.make
  let formulas ← formulas.mapM GivenFormula.make
  let b ← vars.foldlM Book.addVariable .empty
  formulas.foldlM Book.addFormula b

/-- All texts of a list are names. -/
def AllNames (texts : List String) : Prop :=
  ∀ text ∈ texts, ∃ name, Name.ofText text = .ok name

/-- **The first text of a list that is no name**, with its rejection. -/
inductive FirstRejected : List String → Rejection → Prop
  | here {text : String} {texts : List String} {r : Rejection} (rejected : Name.ofText text = .error r) :
      FirstRejected (text :: texts) r
  | later {text : String} {texts : List String} {name : Name} {r : Rejection}
      (named : Name.ofText text = .ok name) (rest : FirstRejected texts r) :
      FirstRejected (text :: texts) r

/-! ## 2. Files -/

/-- The members of a variable. -/
def GivenVariable.members (g : GivenVariable) : List (String × String) :=
  [("name", g.name), ("kind", kindWord g.kind), ("expression", g.text)]

/-- The members of a formula. -/
def GivenFormula.members (g : GivenFormula) : List (String × String) :=
  [("name", g.name), ("expression", g.expression)]

/-- **An entry as an object**: its members, in any order. -/
def EncodesEntry (members : List (String × String)) (v : Value) : Prop :=
  ∃ order : List (String × String), order.Perm members ∧ v = record order

/-- **The member of a book that holds entries**; without entries it may be left out. -/
inductive EncodesList {α : Type} (key : String) (members : α → List (String × String)) :
    List α → List (String × Value) → Prop
  | present {as : List α} {values : List Value}
      (entries : List.Forall₂ (fun a v => EncodesEntry (members a) v) as values) :
      EncodesList key members as [(key, .list values)]
  | absent : EncodesList key members [] []

/-- **A book as an object**, with the texts of its names in the order of the document. -/
inductive Encodes (vars : List GivenVariable) (formulas : List GivenFormula) :
    List String → Value → Prop
  | variablesFirst {mv mf : List (String × Value)}
      (listed : EncodesList "variables" GivenVariable.members vars mv)
      (listed' : EncodesList "formulas" GivenFormula.members formulas mf) :
      Encodes vars formulas (vars.map (·.name) ++ formulas.map (·.name)) (.object (mv ++ mf))
  | formulasFirst {mv mf : List (String × Value)}
      (listed : EncodesList "variables" GivenVariable.members vars mv)
      (listed' : EncodesList "formulas" GivenFormula.members formulas mf) :
      Encodes vars formulas (formulas.map (·.name) ++ vars.map (·.name)) (.object (mf ++ mv))

/-! ## 3. Names in their order -/

section

variable {texts texts' : List String} {r : Rejection}

theorem FirstRejected.not_allNames (h : FirstRejected texts r) : ¬ AllNames texts := by
  intro all
  induction h with
  | here rejected =>
    obtain ⟨name, named⟩ := all _ List.mem_cons_self
    cases named.symm.trans rejected
  | later named rest ih => exact ih fun text ht => all text (List.mem_cons_of_mem _ ht)

theorem FirstRejected.unique {r' : Rejection} (h : FirstRejected texts r)
    (h' : FirstRejected texts r') : r = r' := by
  induction h with
  | here rejected =>
    cases h' with
    | here rejected' => exact Except.error.inj (rejected.symm.trans rejected')
    | later named => cases named.symm.trans rejected
  | later named _ ih =>
    cases h' with
    | here rejected => cases named.symm.trans rejected
    | later _ rest => exact ih rest

/-- A list has a first text that is no name, or none. -/
theorem allNames_or_firstRejected : ∀ texts : List String,
    AllNames texts ∨ ∃ r, FirstRejected texts r
  | [] => .inl fun _ h => absurd h List.not_mem_nil
  | text :: texts => by
      cases named : Name.ofText text with
      | error r => exact .inr ⟨r, .here named⟩
      | ok name =>
        rcases allNames_or_firstRejected texts with all | ⟨r, first⟩
        · exact .inl (List.forall_mem_cons.mpr ⟨⟨name, named⟩, all⟩)
        · exact .inr ⟨r, .later named first⟩

theorem allNames_append : AllNames (texts ++ texts') ↔ AllNames texts ∧ AllNames texts' :=
  List.forall_mem_append

end

section

variable {α β : Type} {name : α → String} {make : α → Except Rejection β}

/-- What is made is made from a name: it is rejected if the name is, and for nothing else. -/
def MadeByName (name : α → String) (make : α → Except Rejection β) : Prop :=
  ∃ build : α → Name → β, ∀ a, make a = (Name.ofText (name a)).map (build a)

theorem GivenVariable.madeByName : MadeByName GivenVariable.name GivenVariable.make := by
  refine ⟨fun g n => ⟨n, g.kind, g.text⟩, fun g => ?_⟩
  unfold GivenVariable.make Variable.make
  cases Name.ofText g.name <;> rfl

theorem GivenFormula.madeByName : MadeByName GivenFormula.name GivenFormula.make := by
  refine ⟨fun g n => ⟨n, g.expression⟩, fun g => ?_⟩
  unfold GivenFormula.make Formula.make
  cases Name.ofText g.name <;> rfl

/-- Entries are made exactly if all their texts are names. -/
theorem MadeByName.mapM_ok_iff (h : MadeByName name make) : ∀ {as : List α},
    (∃ bs, as.mapM make = .ok bs) ↔ AllNames (as.map name)
  | [] => ⟨fun _ _ h => absurd h List.not_mem_nil, fun _ => ⟨[], rfl⟩⟩
  | a :: as => by
      obtain ⟨build, made⟩ := h
      have others : (∃ bs, as.mapM make = .ok bs) ↔ AllNames (as.map name) :=
        mapM_ok_iff ⟨build, made⟩
      rw [List.mapM_cons, made, List.map_cons]
      constructor
      · intro ⟨bs, ok⟩
        obtain ⟨b, first, ok⟩ := bind_eq_ok ok
        obtain ⟨n, named, -⟩ := map_eq_ok first
        obtain ⟨cs, rest, -⟩ := bind_eq_ok ok
        exact List.forall_mem_cons.mpr ⟨⟨n, named⟩, others.mp ⟨cs, rest⟩⟩
      · intro all
        obtain ⟨⟨n, named⟩, all⟩ := List.forall_mem_cons.mp all
        obtain ⟨cs, rest⟩ := others.mpr all
        rw [named, rest]
        exact ⟨build a n :: cs, rfl⟩

/-- Where the first text that is no name belongs to one of the entries or stands behind them, making
the entries fails with it or succeeds. -/
theorem MadeByName.rejected_or_later (h : MadeByName name make) {behind : List String}
    {r : Rejection} : ∀ {as : List α}, FirstRejected (as.map name ++ behind) r →
      as.mapM make = .error r ∨ (∃ bs, as.mapM make = .ok bs) ∧ FirstRejected behind r
  | [], first => .inr ⟨⟨[], rfl⟩, first⟩
  | a :: as, first => by
      obtain ⟨build, made⟩ := h
      rw [List.mapM_cons, made]
      cases first with
      | here rejected =>
        rw [rejected]
        exact .inl rfl
      | later named rest =>
        rw [named]
        rcases rejected_or_later ⟨build, made⟩ rest with fails | ⟨⟨bs, ok⟩, first⟩
        · rw [fails]
          exact .inl rfl
        · rw [ok]
          exact .inr ⟨⟨_, rfl⟩, first⟩

/-- Of two lists of entries made one behind the other, the first that holds the text fails with it. -/
theorem MadeByName.rejected_of_two (h : MadeByName name make) {α' β' : Type} {name' : α' → String}
    {make' : α' → Except Rejection β'} (h' : MadeByName name' make') {as : List α} {as' : List α'}
    {r : Rejection} (first : FirstRejected (as.map name ++ as'.map name') r) :
    as.mapM make = .error r ∨ (∃ bs, as.mapM make = .ok bs) ∧ as'.mapM make' = .error r := by
  rcases h.rejected_or_later first with fails | ⟨made, behind⟩
  · exact .inl fails
  · rw [← List.append_nil (as'.map name')] at behind
    rcases h'.rejected_or_later behind with fails | ⟨-, nowhere⟩
    · exact .inr ⟨made, fails⟩
    · cases nowhere

end

/-! ## 4. Reading an entry -/

/-- The error of a file whose entries are refused. -/
def refused (r : Rejection) : Error :=
  .unfit (.rejected r)

/-- A text is read as a name, whatever it is. -/
theorem readName_given (text : String) :
    readName (.text (.ok text)) = (Name.ofText text).mapError refused := by
  unfold readName readText refused
  simp only [bind, Except.bind]

section

variable (g : GivenVariable)

/-- The text that a field of a variable holds. -/
def GivenVariable.content : Field → String
  | .kind => kindWord g.kind
  | .expression => g.text

/-- A field of a variable as a member. -/
def GivenVariable.member (field : Field) : String × String :=
  (field.key, g.content field)

/-- A field of a variable as it is kept until all members are known. -/
def GivenVariable.kept (field : Field) : Field × Json.Node :=
  (field, .text (.ok (g.content field)))

/-- **The members of a variable are its name and its fields around it.** -/
theorem GivenVariable.exists_order {order : List (String × String)} (h : order.Perm g.members) :
    ∃ before behind : List Field,
      (before ++ behind = [.kind, .expression] ∨ before ++ behind = [.expression, .kind]) ∧
      order = before.map g.member ++ ("name", g.name) :: behind.map g.member := by
  have present : ("name", g.name) ∈ order := h.mem_iff.mpr List.mem_cons_self
  obtain ⟨before, behind, rfl⟩ := List.append_of_mem present
  have others : (before ++ behind).Perm [g.member .kind, g.member .expression] :=
    (List.perm_middle.symm.trans h).cons_inv
  obtain ⟨fields, either, same⟩ : ∃ fields : List Field,
      (fields = [.kind, .expression] ∨ fields = [.expression, .kind]) ∧
        fields.map g.member = before ++ behind := by
    rcases List.perm_pair.mp others with same | same
    · exact ⟨[.kind, .expression], .inl rfl, same.symm⟩
    · exact ⟨[.expression, .kind], .inr rfl, same.symm⟩
  obtain ⟨left, right, rfl, rfl, rfl⟩ := List.map_eq_append_iff.mp same
  exact ⟨left, right, either, rfl⟩

/-- The fields of a variable are kept in their order. -/
theorem readMembers_fields {name : Option Name} (members : List Json.Member) :
    ∀ (order : List Field) (fields : List (Field × Json.Node)),
      readMembers none name fields
          ((order.map g.member).map (fun m => Value.memberNode (m.1, .text m.2)) ++ members) =
        readMembers none name ((order.map g.kept).reverse ++ fields) members
  | [], fields => rfl
  | field :: order, fields => by
      refine (readMembers_field field (g.content field)).trans ?_
      rw [List.append_eq, readMembers_fields members order]
      simp [GivenVariable.kept]

/-- Kind and text are known from the fields in either order. -/
theorem readDefinition_kept {order : List Field}
    (h : order = [.kind, .expression] ∨ order = [.expression, .kind]) :
    readDefinition (order.map g.kept) = .ok (g.kind, g.text) := by
  have kind : readKind (.text (.ok (kindWord g.kind))) = .ok g.kind := by
    rw [readKind, kindOfWord_kindWord]
    rfl
  rcases h with rfl | rfl
  · simp only [List.map_cons, List.map_nil, GivenVariable.kept, GivenVariable.content,
      readDefinition, kind, readText, noMore, bind, Except.bind]
    rfl
  · simp only [List.map_cons, List.map_nil, GivenVariable.kept, GivenVariable.content,
      readDefinition, kind, readText, noMore, bind, Except.bind]
    rfl

/-- **A variable is read from its members in any order.** -/
theorem readVariable_encoded {v : Value} (h : EncodesEntry g.members v) :
    readVariable v.node = g.make.mapError refused := by
  obtain ⟨order, perm, rfl⟩ := h
  obtain ⟨before, behind, either, rfl⟩ := g.exists_order perm
  have nodes : (record (before.map g.member ++ ("name", g.name) :: behind.map g.member)).node =
      .object
        ((before.map g.member).map (fun m => Value.memberNode (m.1, .text m.2)) ++
          (Value.memberNode ("name", .text g.name) ::
            ((behind.map g.member).map (fun m => Value.memberNode (m.1, .text m.2)) ++ []))) none := by
    simp [record, Value.object, Function.comp_def]
  -- fields are only kept, before the name and behind it; the name is read where it stands
  rw [nodes, readVariable, readMembers_fields, readMembers_name, readName_given]
  unfold GivenVariable.make Variable.make
  cases Name.ofText g.name with
  | error r => rfl
  | ok n =>
    have known := readDefinition_kept g either
    simp only [Except.mapError, bind, Except.bind, readMembers_fields, readMembers, sound]
    simp only [pure, Except.pure, List.append_nil, List.reverse_append, List.reverse_reverse,
      ← List.map_append, known]

end

/-- **A formula is read from its members in either order.** -/
theorem readFormula_encoded (g : GivenFormula) {v : Value} (h : EncodesEntry g.members v) :
    readFormula v.node = g.make.mapError refused := by
  obtain ⟨order, perm, rfl⟩ := h
  unfold GivenFormula.make Formula.make
  rcases List.perm_pair.mp perm with rfl | rfl
  · refine (readFormulaMembers_name g.name).trans ?_
    rw [readName_given]
    cases Name.ofText g.name with
    | error r => rfl
    | ok n => exact readFormulaMembers_expression g.expression
  · refine (readFormulaMembers_expression g.expression).trans ?_
    refine (readFormulaMembers_name g.name).trans ?_
    rw [readName_given]
    cases Name.ofText g.name with
    | error r => rfl
    | ok n => rfl

/-! ## 5. Reading a book -/

/-- Renaming the failures of the steps renames that of the whole. -/
theorem mapM_mapError {ε ε' α β : Type} (f : ε → ε') (step : α → Except ε β) :
    ∀ as : List α, (as.mapM fun a => (step a).mapError f) = (as.mapM step).mapError f
  | [] => rfl
  | a :: as => by
      rw [List.mapM_cons, List.mapM_cons, mapM_mapError f step as]
      cases step a with
      | error e => rfl
      | ok b => cases as.mapM step <;> rfl

/-- A list of entries is read from one entry to the next. -/
theorem readEntries_encoded {α β : Type} {members : α → List (String × String)}
    {read : Json.Node → Except Error β} {make : α → Except Rejection β}
    (reads : ∀ a v, EncodesEntry (members a) v → read v.node = (make a).mapError refused)
    {as : List α} {values : List Value}
    (entries : List.Forall₂ (fun a v => EncodesEntry (members a) v) as values) :
    readEntries read (Value.list values).node = (as.mapM make).mapError refused := by
  have items : (values.map Value.node).mapM read = (as.mapM make).mapError refused := by
    rw [← mapM_mapError]
    induction entries with
    | nil => rfl
    | cons entry _ ih =>
      rw [List.map_cons, List.mapM_cons, List.mapM_cons, reads _ _ entry, ih]
  have node : (Value.list values).node = .list (values.map Value.node) none := rfl
  rw [node, readEntries, items]
  cases as.mapM make <;> rfl

section

variable {vars : List GivenVariable} {formulas : List GivenFormula} {names : List String} {v : Value}

/-- The list of variables is read where it stands. -/
theorem readBookMembers_variables {values : List Value}
    (entries : List.Forall₂ (fun g v => EncodesEntry (GivenVariable.members g) v) vars values)
    (read : Option (List Formula)) (members : List Json.Member) :
    readBookMembers none none read (Value.memberNode ("variables", .list values) :: members) =
      (vars.mapM GivenVariable.make).mapError refused >>= fun vs =>
        readBookMembers none (some vs) read members := by
  have list := readEntries_encoded (fun g _ => readVariable_encoded g) entries
  rw [Value.memberNode, readBookMembers]
  simp only [readKey, present, Except.mapError, bind, Except.bind, if_true, Option.isSome_none,
    Bool.false_eq_true, if_false, list]

/-- The list of formulas is read where it stands. -/
theorem readBookMembers_formulas {values : List Value}
    (entries : List.Forall₂ (fun g v => EncodesEntry (GivenFormula.members g) v) formulas values)
    (read : Option (List Variable)) (members : List Json.Member) :
    readBookMembers none read none (Value.memberNode ("formulas", .list values) :: members) =
      (formulas.mapM GivenFormula.make).mapError refused >>= fun fs =>
        readBookMembers none read (some fs) members := by
  have other : "formulas" ≠ "variables" := by decide
  have list := readEntries_encoded (fun g _ => readFormula_encoded g) entries
  rw [Value.memberNode, readBookMembers]
  simp only [readKey, present, Except.mapError, bind, Except.bind, if_true, if_neg other,
    Option.isSome_none, Bool.false_eq_true, if_false, list]

theorem readBook_variablesFirst {mv mf : List (String × Value)}
    (listed : EncodesList "variables" GivenVariable.members vars mv)
    (listed' : EncodesList "formulas" GivenFormula.members formulas mf) :
    readBook (Value.object (mv ++ mf)).node =
      (vars.mapM GivenVariable.make).mapError refused >>= fun vs =>
        (formulas.mapM GivenFormula.make).mapError refused >>= fun fs => .ok ⟨vs, fs⟩ := by
  -- a list that is left out is read as one without entries
  cases listed with
  | present entries =>
    refine (readBookMembers_variables entries none _).trans (bind_congr fun vs => ?_)
    cases listed' with
    | present entries' => exact readBookMembers_formulas entries' (some vs) []
    | absent => rfl
  | absent =>
    cases listed' with
    | present entries' => exact readBookMembers_formulas entries' none []
    | absent => rfl

theorem readBook_formulasFirst {mv mf : List (String × Value)}
    (listed : EncodesList "variables" GivenVariable.members vars mv)
    (listed' : EncodesList "formulas" GivenFormula.members formulas mf) :
    readBook (Value.object (mf ++ mv)).node =
      (formulas.mapM GivenFormula.make).mapError refused >>= fun fs =>
        (vars.mapM GivenVariable.make).mapError refused >>= fun vs => .ok ⟨vs, fs⟩ := by
  cases listed' with
  | present entries' =>
    refine (readBookMembers_formulas entries' none _).trans (bind_congr fun fs => ?_)
    cases listed with
    | present entries => exact readBookMembers_variables entries (some fs) []
    | absent => rfl
  | absent =>
    cases listed with
    | present entries => exact readBookMembers_variables entries none []
    | absent => rfl

/-- **Reading ends at the first text that is no name**, in the order of the document. -/
theorem readBook_rejected (h : Encodes vars formulas names v) {r : Rejection}
    (first : FirstRejected names r) : readBook v.node = .error (refused r) := by
  cases h with
  | variablesFirst listed listed' =>
    rw [readBook_variablesFirst listed listed']
    rcases GivenVariable.madeByName.rejected_of_two GivenFormula.madeByName first with
      fails | ⟨⟨vs, made⟩, fails⟩
    · rw [fails]
      rfl
    · rw [made, fails]
      rfl
  | formulasFirst listed listed' =>
    rw [readBook_formulasFirst listed listed']
    rcases GivenFormula.madeByName.rejected_of_two GivenVariable.madeByName first with
      fails | ⟨⟨fs, made⟩, fails⟩
    · rw [fails]
      rfl
    · rw [made, fails]
      rfl

/-- **Where all texts are names, the entries are read**, in any order of the document. -/
theorem readBook_allNames (h : Encodes vars formulas names v) (all : AllNames names) :
    ∃ vs fs, vars.mapM GivenVariable.make = .ok vs ∧ formulas.mapM GivenFormula.make = .ok fs ∧
      readBook v.node = .ok ⟨vs, fs⟩ := by
  cases h with
  | variablesFirst listed listed' =>
    obtain ⟨named, named'⟩ := allNames_append.mp all
    obtain ⟨vs, made⟩ := GivenVariable.madeByName.mapM_ok_iff.mpr named
    obtain ⟨fs, made'⟩ := GivenFormula.madeByName.mapM_ok_iff.mpr named'
    refine ⟨vs, fs, made, made', ?_⟩
    rw [readBook_variablesFirst listed listed', made, made']
    rfl
  | formulasFirst listed listed' =>
    obtain ⟨named', named⟩ := allNames_append.mp all
    obtain ⟨vs, made⟩ := GivenVariable.madeByName.mapM_ok_iff.mpr named
    obtain ⟨fs, made'⟩ := GivenFormula.madeByName.mapM_ok_iff.mpr named'
    refine ⟨vs, fs, made, made', ?_⟩
    rw [readBook_formulasFirst listed listed', made, made']
    rfl

/-- What can be entered by hand has names only. -/
theorem allNames_of_entered (h : Encodes vars formulas names v) {b : Book}
    (ok : entered vars formulas = .ok b) : AllNames names := by
  obtain ⟨vs, made, ok⟩ := bind_eq_ok ok
  obtain ⟨fs, made', -⟩ := bind_eq_ok ok
  have named := GivenVariable.madeByName.mapM_ok_iff.mp ⟨vs, made⟩
  have named' := GivenFormula.madeByName.mapM_ok_iff.mp ⟨fs, made'⟩
  cases h with
  | variablesFirst => exact allNames_append.mpr ⟨named, named'⟩
  | formulasFirst => exact allNames_append.mpr ⟨named', named⟩

/-! ## 6. Opening -/

/-- A file that spells a value is opened by reading the value and adding its entries. -/
theorem ofText_of_spelled {s : String} (spelled : Token.Spelled s.toList v.tokens) :
    ofText s = readBook v.node >>= fun e => e.toBook.mapError refused := by
  unfold ofText ofDocument
  rw [Json.Document.ofText_spelled spelled]
  cases read : readBook v.node with
  | error e => simp only [Except.mapError, bind, Except.bind, read]
  | ok e =>
    simp only [Except.mapError, bind, Except.bind, read, refused]
    cases e.toBook <;> rfl

/-- A text that is no name is the error of the file. -/
theorem ofText_rejected {s : String} (h : Encodes vars formulas names v)
    (spelled : Token.Spelled s.toList v.tokens) {r : Rejection} (first : FirstRejected names r) :
    ofText s = .error (refused r) := by
  rw [ofText_of_spelled spelled, readBook_rejected h first]
  rfl

/-- Where all texts are names, opening is entering. -/
theorem ofText_allNames {s : String} (h : Encodes vars formulas names v)
    (spelled : Token.Spelled s.toList v.tokens) (all : AllNames names) :
    ofText s = (entered vars formulas).mapError refused := by
  obtain ⟨vs, fs, made, made', read⟩ := readBook_allNames h all
  have entering : entered vars formulas = Entries.toBook ⟨vs, fs⟩ := by
    unfold entered
    rw [made, made']
    rfl
  rw [ofText_of_spelled spelled, read, entering]
  rfl

/-- **A message carries a text**: it holds the text as a whole. -/
def Carries (message text : String) : Prop :=
  ∃ before behind, message = before ++ text ++ behind

theorem carries_message (r : Rejection) : Carries (Error.message (.unfit (.rejected r))) r.message :=
  ⟨"Invalid definitions file: ", "", (String.append_empty).symm⟩

/-- **Opening a file is entering it by hand.** Given any entries and a text that encodes them, with
its lists, members, white space and escapes in any order and form: the file is opened as a book exactly
if the entries can be entered, and it is that book. Else the error is the rejection of the first text
that is no name, in the order of the document, or if all are names that of the first entry that cannot
be added, in the order of entering; and its message carries that of the rejection. -/
theorem ofText_iff_entered {s : String} (h : Encodes vars formulas names v)
    (spelled : Token.Spelled s.toList v.tokens) :
    (∀ b, ofText s = .ok b ↔ entered vars formulas = .ok b) ∧
      ∀ e, ofText s = .error e ↔ ∃ r, e = .unfit (.rejected r) ∧ Carries e.message r.message ∧
        (FirstRejected names r ∨ AllNames names ∧ entered vars formulas = .error r) := by
  rcases allNames_or_firstRejected names with all | ⟨r, first⟩
  · rw [ofText_allNames h spelled all]
    constructor
    · intro b
      exact ⟨mapError_eq_ok, fun ok => by rw [ok]; rfl⟩
    · intro e
      constructor
      · intro fails
        obtain ⟨r, rejected, rfl⟩ := mapError_eq_error fails
        exact ⟨r, rfl, carries_message r, .inr ⟨all, rejected⟩⟩
      · rintro ⟨r, rfl, -, first | ⟨-, rejected⟩⟩
        · exact absurd all first.not_allNames
        · rw [rejected]
          rfl
  · rw [ofText_rejected h spelled first]
    constructor
    · intro b
      constructor
      · intro ok
        cases ok
      · intro ok
        exact absurd (allNames_of_entered h ok) first.not_allNames
    · intro e
      constructor
      · intro fails
        cases fails
        exact ⟨r, rfl, carries_message r, .inl first⟩
      · rintro ⟨r', rfl, -, first' | ⟨all, -⟩⟩
        · rw [first.unique first']
          rfl
        · exact absurd all first.not_allNames

end

/-- A member with a text as its value, and a comma. -/
def memberText (key text : String) : String :=
  Json.Text.quote key ++ (": " ++ (Json.Text.quote text ++ ", "))

/-- A file with a formula and, behind it, a variable with a given name: expressions stand before names,
and the name of the formula has an escape in it. -/
def twoEntries (name : String) : String :=
  "\x7b " ++ (Json.Text.quote "formulas" ++ (": [\x7b" ++ (memberText "expression" "1" ++
    (Json.Text.quote "name" ++ (":\t" ++ ("\"\\u006e\"\x7d], " ++ (Json.Text.quote "variables" ++
      (": [\x7b" ++ (memberText "kind" "dynamic" ++ (memberText "expression" "0" ++
        (Json.Text.quote "name" ++ (": " ++ (Json.Text.quote name ++ "\x7d]\x7d")))))))))))))

/-- The value that it spells. -/
def twoEntriesValue (name : String) : Value :=
  .object [("formulas", .list [record [("expression", "1"), ("name", "n")]]),
    ("variables", .list [record [("kind", "dynamic"), ("expression", "0"), ("name", name)]])]

theorem encodes_twoEntries (name : String) :
    Encodes [⟨name, .dynamic, "0"⟩] [⟨"n", "1"⟩] ["n", name] (twoEntriesValue name) :=
  .formulasFirst
    (.present (.cons
      ⟨_, List.perm_append_singleton ("name", name) [("kind", "dynamic"), ("expression", "0")], rfl⟩
      .nil))
    (.present (.cons ⟨_, .swap _ _ _, rfl⟩ .nil))

theorem spelled_twoEntries (name : String) :
    Token.Spelled (twoEntries name).toList (twoEntriesValue name).tokens := by
  have opening : Token.Spelled "\x7b ".toList [.openObject] := Token.spelled_marks rfl
  have list : Token.Spelled ": [\x7b".toList [.colon, .openList, .openObject] :=
    Token.spelled_marks rfl
  have colon : Token.Spelled ":\t".toList [.colon] := Token.spelled_marks rfl
  have comma : Token.Spelled ", ".toList [.comma] := Token.spelled_marks rfl
  have between : Token.Spelled "\x7d], ".toList [.closeObject, .closeList, .comma] :=
    Token.spelled_marks rfl
  have closing : Token.Spelled "\x7d]\x7d".toList [.closeObject, .closeList, .closeObject] :=
    Token.spelled_marks rfl
  have escaped : Json.Text.Spelled "\\u006e".toList ['n'] := .unit (n := 110) rfl rfl rfl .nil
  have texts := fun key text =>
    (spelled_quote key).append (spelled_colon.append ((spelled_quote text).append comma))
  have front := opening.append ((spelled_quote "formulas").append (list.append
    ((texts "expression" "1").append ((spelled_quote "name").append (colon.append
      (.text escaped between))))))
  have behind := (spelled_quote "variables").append (list.append ((texts "kind" "dynamic").append
    ((texts "expression" "0").append ((spelled_quote "name").append (spelled_colon.append
      ((spelled_quote name).append closing))))))
  have whole := front.append behind
  simp only [List.append_assoc] at whole
  simp only [twoEntries, memberText, String.toList_append, List.append_assoc]
  exact whole

theorem entered_twoEntries : entered [⟨"v", .dynamic, "0"⟩] [⟨"n", "1"⟩] =
    .ok ⟨[⟨⟨"V", by decide⟩, .dynamic, "0"⟩], [⟨⟨"N", by decide⟩, "1"⟩]⟩ := by
  have made : GivenVariable.make ⟨"v", .dynamic, "0"⟩ = .ok ⟨⟨"V", by decide⟩, .dynamic, "0"⟩ := by
    cbv
  have made' : GivenFormula.make ⟨"n", "1"⟩ = .ok ⟨⟨"N", by decide⟩, "1"⟩ := by cbv
  have added : Book.addVariable .empty ⟨⟨"V", by decide⟩, .dynamic, "0"⟩ =
      .ok ⟨[⟨⟨"V", by decide⟩, .dynamic, "0"⟩], []⟩ := by cbv
  have added' : Book.addFormula ⟨[⟨⟨"V", by decide⟩, .dynamic, "0"⟩], []⟩ ⟨⟨"N", by decide⟩, "1"⟩ =
      .ok ⟨[⟨⟨"V", by decide⟩, .dynamic, "0"⟩], [⟨⟨"N", by decide⟩, "1"⟩]⟩ := by cbv
  simp only [entered, List.mapM_cons, List.mapM_nil, List.foldlM_cons, List.foldlM_nil, bind,
    Except.bind, pure, Except.pure, made, made', added, added']

/-- With a name it is opened as the book in which both were entered, and with another text it is
refused for this text. -/
theorem twoEntries_opened :
    ofText (twoEntries "v") = .ok ⟨[⟨⟨"V", by decide⟩, .dynamic, "0"⟩], [⟨⟨"N", by decide⟩, "1"⟩]⟩ ∧
      ofText (twoEntries "2v") = .error (.unfit (.rejected (.invalidName "2v"))) := by
  obtain ⟨opens, -⟩ := ofText_iff_entered (encodes_twoEntries "v") (spelled_twoEntries "v")
  obtain ⟨-, refuses⟩ := ofText_iff_entered (encodes_twoEntries "2v") (spelled_twoEntries "2v")
  have named : Name.ofText "n" = .ok ⟨"N", by decide⟩ := by cbv
  have invalid : Name.isValid (Name.normalize "2v") = false := by cbv
  have bare : Text.trim "2v" = "2v" := by cbv
  have rejected : Name.ofText "2v" = .error (.invalidName "2v") := by
    rw [Name.ofText, dif_neg (by simp [invalid]), bare]
  have first : FirstRejected ["n", "2v"] (.invalidName "2v") := .later named (.here rejected)
  exact ⟨(opens _).mpr entered_twoEntries,
    (refuses _).mpr ⟨_, rfl, carries_message (.invalidName "2v"), .inl first⟩⟩

end Reckoner.Definitions
