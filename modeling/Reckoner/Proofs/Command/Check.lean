import Mathlib
import Reckoner.Command.Run
import Reckoner.Proofs.Book.Validation
import Reckoner.Proofs.Definitions.RoundTrip

/-!
# The check is exact

A check looks at formulas and variables one by one and resolves the variables only if it has counted
no problem so far. `Book.check` is the list of what it reports, and the counter that it carries along is
the number of problems in this list (`Book.tally_eq`). `Book.Finds` says of each finding what it is
about, and **a check lists these and no others** (`Book.mem_check_iff`).

**It finds a problem exactly if the variables cannot be resolved or a formula fails its own check**
(`Book.no_problem_iff`). For this a variable must not be found at fault where resolving succeeds
(`Book.checkVariable_eq_nil`): what resolves has values for all that it refers to, so each of these is
there, under the spelling that is looked up.

`Command.check_exact` is the same for a run of the program, with what it prints and how it exits.
-/

namespace Reckoner

namespace Book

/-! ## 1. Findings and their lines -/

/-- Whether a finding is a problem. -/
def Finding.isProblem : Finding → Bool
  | .sound .. => false
  | _ => true

/-- Whether a line reports a problem. -/
def reportsError (line : String) : Bool :=
  "error ".toList.isPrefixOf line.toList

theorem reportsError_error (rest : String) : reportsError ("error " ++ rest) = true := by
  unfold reportsError
  rw [String.toList_append]
  rfl

theorem reportsError_ok (rest : String) : reportsError ("ok    " ++ rest) = false := by
  unfold reportsError
  rw [String.toList_append]
  rfl

/-- **A finding is a problem exactly if its line says so.** -/
theorem Finding.reportsError_text (finding : Finding) :
    reportsError finding.text = finding.isProblem := by
  cases finding with
  | sound formula needs =>
    cases needs with
    | nil => exact reportsError_ok formula.text
    | cons name names =>
      show reportsError ("ok    " ++ formula.text ++ "  (needs " ++ _ ++ ")") = false
      simp only [String.append_assoc, reportsError_ok]
  | badFormula formula fault =>
    show reportsError ("error " ++ formula.text ++ ": " ++ fault.message) = true
    simp only [String.append_assoc, reportsError_error]
  | undefinedReference owner name =>
    show reportsError ("error " ++ owner.text ++ ": references undefined variable " ++ name) = true
    simp only [String.append_assoc, reportsError_error]
  | unreadable owner fault =>
    show reportsError ("error " ++ owner.text ++ ": " ++ fault.message) = true
    simp only [String.append_assoc, reportsError_error]
  | unresolved failure =>
    have start : "error variables: " = "error " ++ "variables: " := by decide
    show reportsError ("error variables: " ++ failure.message) = true
    simp only [start, String.append_assoc, reportsError_error]

/-! ## 2. What there is to find -/

/-- What a check says about a formula. -/
def checkFormula (b : Book) (f : Formula) : Finding :=
  match b.validate f.expression with
  | .ok () => .sound f.name (Placeholder.names f.expression)
  | .error fault => .badFormula f.name fault

/-- What a check says about a variable on its own. -/
def checkVariable (b : Book) (v : Variable) : List Finding :=
  match v.kind with
  | .constant => []
  | .dynamic =>
    match dependencies v.text with
    | .ok names =>
      (names.filter fun name => (b.findVariable name).isNone).map (.undefinedReference v.name)
    | .error fault => [.unreadable v.name fault]

/-- What a check says about the entries of a book, one by one. -/
def checkEntries (b : Book) : List Finding :=
  b.formulas.map b.checkFormula ++ b.vars.flatMap b.checkVariable

/-- What a check says about a book. -/
def check (b : Book) : List Finding :=
  if b.checkEntries.any Finding.isProblem then
    b.checkEntries
  else
    match b.resolve with
    | .ok _ => b.checkEntries
    | .error failure => b.checkEntries ++ [.unresolved failure]

variable {b : Book}

/-- A formula is no problem exactly if it passes its own check. -/
theorem isProblem_checkFormula (f : Formula) :
    (b.checkFormula f).isProblem = false ↔ b.validate f.expression = .ok () := by
  unfold checkFormula
  cases b.validate f.expression with
  | ok => simp [Finding.isProblem]
  | error => simp [Finding.isProblem]

/-- **What a check has to report of a book**, and of what each report speaks. -/
inductive Finds (b : Book) : Finding → Prop
  | sound {f : Formula} (kept : f ∈ b.formulas) (passes : b.validate f.expression = .ok ()) :
      Finds b (.sound f.name (Placeholder.names f.expression))
  | badFormula {f : Formula} {fault : Fault} (kept : f ∈ b.formulas)
      (fails : b.validate f.expression = .error fault) : Finds b (.badFormula f.name fault)
  | undefinedReference {v : Variable} {lexemes : List Lexeme} {name : String} (kept : v ∈ b.vars)
      (kind : v.kind = .dynamic) (read : Lexeme.ofText .dynamic v.text = .ok lexemes)
      (refers : name ∈ Lexeme.references lexemes) (lacks : b.findVariable name = none) :
      Finds b (.undefinedReference v.name name)
  | unreadable {v : Variable} {fault : Fault} (kept : v ∈ b.vars) (kind : v.kind = .dynamic)
      (unread : Lexeme.ofText .dynamic v.text = .error fault) : Finds b (.unreadable v.name fault)
  | unresolved {failure : Failure}
      (clean : ∀ finding ∈ b.checkEntries, finding.isProblem = false)
      (fails : b.resolve = .error failure) : Finds b (.unresolved failure)

/-- The names that the expression of a variable depends on are those it refers to. -/
theorem dependencies_eq (text : String) : dependencies text =
    (Lexeme.ofText .dynamic text).map fun ls => Text.sortedDistinct (Lexeme.references ls) := by
  unfold dependencies
  cases Lexeme.ofText .dynamic text <;> rfl

/-- **Each reference of a variable to one that is not there is reported of it**, and so is that its
expression cannot be read; nothing else is. -/
theorem mem_checkVariable_iff {v : Variable} {finding : Finding} :
    finding ∈ b.checkVariable v ↔ v.kind = .dynamic ∧
      ((∃ fault, Lexeme.ofText .dynamic v.text = .error fault ∧ finding = .unreadable v.name fault) ∨
        ∃ lexemes name, Lexeme.ofText .dynamic v.text = .ok lexemes ∧
          name ∈ Lexeme.references lexemes ∧ b.findVariable name = none ∧
            finding = .undefinedReference v.name name) := by
  unfold checkVariable
  cases kind : v.kind with
  | constant => simp
  | dynamic =>
    rw [dependencies_eq]
    cases read : Lexeme.ofText .dynamic v.text with
    | error fault => simp [Except.map]
    | ok lexemes =>
      simp only [Except.map, List.mem_map, List.mem_filter, Text.mem_sortedDistinct,
        Option.isNone_iff_eq_none, true_and, reduceCtorEq, false_and, exists_false, false_or,
        Except.ok.injEq]
      constructor
      · rintro ⟨name, ⟨refers, lacks⟩, rfl⟩
        exact ⟨lexemes, name, rfl, refers, lacks, rfl⟩
      · rintro ⟨_, name, rfl, refers, lacks, rfl⟩
        exact ⟨name, ⟨refers, lacks⟩, rfl⟩

theorem mem_checkEntries_iff {finding : Finding} : finding ∈ b.checkEntries ↔
    (∃ f ∈ b.formulas, b.checkFormula f = finding) ∨ ∃ v ∈ b.vars, finding ∈ b.checkVariable v := by
  rw [checkEntries, List.mem_append, List.mem_map, List.mem_flatMap]

/-- What is said of an entry is there to report. -/
theorem finds_of_mem_checkEntries {finding : Finding} (h : finding ∈ b.checkEntries) :
    b.Finds finding := by
  rcases mem_checkEntries_iff.mp h with ⟨f, kept, rfl⟩ | ⟨v, kept, ofVariable⟩
  · unfold checkFormula
    split
    · rename_i passes
      exact .sound kept passes
    · rename_i fails
      exact .badFormula kept fails
  · obtain ⟨kind, ⟨fault, unread, rfl⟩ | ⟨lexemes, name, read, refers, lacks, rfl⟩⟩ :=
      mem_checkVariable_iff.mp ofVariable
    · exact .unreadable kept kind unread
    · exact .undefinedReference kept kind read refers lacks

theorem checkEntries_subset_check : b.checkEntries ⊆ b.check := by
  unfold check
  split
  · exact List.Subset.refl _
  · split
    · exact List.Subset.refl _
    · exact List.subset_append_left _ _

/-- **A check lists what there is to report, and nothing else.** -/
theorem mem_check_iff {finding : Finding} : finding ∈ b.check ↔ b.Finds finding := by
  constructor
  · intro h
    unfold check at h
    split at h
    · exact finds_of_mem_checkEntries h
    · rename_i clean
      split at h
      · exact finds_of_mem_checkEntries h
      · rename_i failure fails
        rcases List.mem_append.mp h with entry | last
        · exact finds_of_mem_checkEntries entry
        · rw [List.mem_singleton.mp last]
          exact .unresolved (by simpa using clean) fails
  · intro h
    have ofFormula : ∀ f ∈ b.formulas, b.checkFormula f ∈ b.check := fun f kept =>
      checkEntries_subset_check (mem_checkEntries_iff.mpr (.inl ⟨f, kept, rfl⟩))
    have ofVariable : ∀ v ∈ b.vars, b.checkVariable v ⊆ b.check := fun v kept finding h =>
      checkEntries_subset_check (mem_checkEntries_iff.mpr (.inr ⟨v, kept, h⟩))
    cases h with
    | @sound f kept passes =>
      have listed := ofFormula f kept
      rwa [checkFormula, passes] at listed
    | @badFormula f fault kept fails =>
      have listed := ofFormula f kept
      rwa [checkFormula, fails] at listed
    | undefinedReference kept kind read refers lacks =>
      exact ofVariable _ kept
        (mem_checkVariable_iff.mpr ⟨kind, .inr ⟨_, _, read, refers, lacks, rfl⟩⟩)
    | unreadable kept kind unread =>
      exact ofVariable _ kept (mem_checkVariable_iff.mpr ⟨kind, .inl ⟨_, unread, rfl⟩⟩)
    | unresolved clean fails =>
      have none : ¬ b.checkEntries.any Finding.isProblem = true := by simpa using clean
      rw [check, if_neg none, fails]
      exact List.mem_append.mpr (.inr (List.mem_singleton.mpr rfl))

/-! ## 3. The counter -/

namespace Tally

/-- What has been reported and counted when the findings are these. -/
def of (findings : List Finding) : Tally :=
  { reported := findings.reverse, problems := findings.countP Finding.isProblem }

theorem approve_of (findings : List Finding) {finding : Finding} (well : finding.isProblem = false) :
    (of findings).approve finding = of (findings ++ [finding]) := by
  simp [of, approve, well]

theorem object_of (findings : List Finding) {finding : Finding} (problem : finding.isProblem = true) :
    (of findings).object finding = of (findings ++ [finding]) := by
  simp [of, object, problem]

/-- A pass that reports and counts what it finds in each entry does so with all of them. -/
theorem foldl_of {α : Type} {pass : Tally → α → Tally} {found : α → List Finding}
    (step : ∀ findings a, pass (of findings) a = of (findings ++ found a)) (entries : List α)
    (findings : List Finding) :
    entries.foldl pass (of findings) = of (findings ++ entries.flatMap found) := by
  induction entries generalizing findings with
  | nil => rw [List.foldl_nil, List.flatMap_nil, List.append_nil]
  | cons a entries ih => rw [List.foldl_cons, step, ih, List.flatMap_cons, List.append_assoc]

end Tally

theorem tallyFormula_of (findings : List Finding) (f : Formula) :
    b.tallyFormula (.of findings) f = .of (findings ++ [b.checkFormula f]) := by
  unfold tallyFormula checkFormula
  cases b.validate f.expression with
  | ok => exact Tally.approve_of findings rfl
  | error fault => exact Tally.object_of findings rfl

theorem tallyVariable_of (findings : List Finding) (v : Variable) :
    b.tallyVariable (.of findings) v = .of (findings ++ b.checkVariable v) := by
  unfold tallyVariable checkVariable
  cases v.kind with
  | constant => exact congrArg Tally.of (List.append_nil findings).symm
  | dynamic =>
    cases dependencies v.text with
    | error fault => exact Tally.object_of findings rfl
    | ok names =>
      have step : ∀ (findings : List Finding) (name : String),
          (Tally.of findings).object (.undefinedReference v.name name) =
            .of (findings ++ [.undefinedReference v.name name]) :=
        fun findings name => Tally.object_of findings rfl
      dsimp only
      rw [List.map_eq_flatMap, Tally.foldl_of step]

/-- **A check reports what there is to report, and counts the problems among it**: the counter that it
carries through its passes is the number of the problems listed. -/
theorem tally_eq (b : Book) : b.tally = .of b.check := by
  have entries : b.vars.foldl b.tallyVariable (b.formulas.foldl b.tallyFormula (.of [])) =
      .of b.checkEntries := by
    rw [Tally.foldl_of tallyFormula_of, Tally.foldl_of tallyVariable_of, List.nil_append,
      ← List.map_eq_flatMap]
    rfl
  have counted : (Tally.of b.checkEntries).problems = 0 ↔
      ¬ b.checkEntries.any Finding.isProblem = true := by
    rw [Tally.of, List.countP_eq_zero, List.any_eq_true]
    simp
  unfold tally check
  dsimp only
  rw [show (⟨[], 0⟩ : Tally) = .of [] from rfl, entries]
  by_cases clean : (Tally.of b.checkEntries).problems = 0
  · rw [if_pos clean, if_neg (counted.mp clean)]
    cases b.resolve with
    | ok values => rfl
    | error failure => exact Tally.object_of _ rfl
  · rw [if_neg clean, if_pos (not_not.mp (mt counted.mpr clean))]

/-! ## 4. No false alarm -/

/-- **Where the variables can be resolved, nothing is wrong with any of them on its own.** -/
theorem checkVariable_eq_nil {values : List (String × Binary64)} (resolves : b.resolve = .ok values)
    {v : Variable} (hv : v ∈ b.vars) : b.checkVariable v = [] := by
  refine List.eq_nil_iff_forall_not_mem.mpr fun finding found => ?_
  obtain ⟨kind, problem⟩ := mem_checkVariable_iff.mp found
  have defined : definition? b.vars v.name.text = some v :=
    definition?_of_mem (distinct_of_resolve resolves) hv
  obtain ⟨x, hx⟩ := Formula.exists_tableValue resolves (mem_namesOf.mpr ⟨v, hv, rfl⟩)
  have means : Means b.vars v.name.text x := (Formula.tableValue_iff resolves _ x).mp hx
  obtain ⟨lexemes, value, read, known, -⟩ := means.of_dynamic defined kind
  rcases problem with ⟨fault, unread, -⟩ | ⟨lexemes', name, read', refers, lacks, -⟩
  · cases read.symm.trans unread
  · -- a name is looked up in any spelling, a value in one: a reference is written in that one
    cases read.symm.trans read'
    have there := isNone_findVariable resolves (Lexeme.isValid_of_mem_references read refers)
    rw [lacks, (Formula.tableValue_iff resolves _ _).mpr (known name refers)] at there
    cases there

/-! ## 5. Nothing hidden -/

/-- **Where the variables cannot be resolved, that is reported, or else something was before.** -/
theorem unresolved_mem_check {failure : Failure} (fails : b.resolve = .error failure) :
    .unresolved failure ∈ b.check ∨
      b.check = b.checkEntries ∧ ∃ finding ∈ b.checkEntries, finding.isProblem = true := by
  unfold check
  split
  · rename_i before
    exact .inr ⟨rfl, List.any_eq_true.mp before⟩
  · simp only [fails]
    exact .inl (List.mem_append.mpr (.inr (List.mem_singleton.mpr rfl)))

/-- A check that finds no problem has looked at everything. -/
theorem no_problem_iff_entries :
    (∀ finding ∈ b.check, finding.isProblem = false) ↔
      (∀ finding ∈ b.checkEntries, finding.isProblem = false) ∧ ∃ values, b.resolve = .ok values := by
  unfold check
  by_cases before : b.checkEntries.any Finding.isProblem = true
  · rw [if_pos before]
    obtain ⟨finding, hf, problem⟩ := List.any_eq_true.mp before
    constructor
    · intro none
      cases problem.symm.trans (none finding hf)
    · intro none
      cases problem.symm.trans (none.1 finding hf)
  · rw [if_neg before]
    have clean : ∀ finding ∈ b.checkEntries, finding.isProblem = false := by
      simpa using before
    cases fails : b.resolve with
    | ok values => exact ⟨fun _ => ⟨clean, values, rfl⟩, fun _ => clean⟩
    | error failure =>
      constructor
      · intro none
        cases none (.unresolved failure) (List.mem_append.mpr (.inr (List.mem_singleton.mpr rfl)))
      · rintro ⟨-, values, resolves⟩
        cases resolves

/-- **A check finds no problem exactly if the variables can be resolved and every formula passes its
own check.** -/
theorem no_problem_iff :
    (∀ finding ∈ b.check, finding.isProblem = false) ↔
      (∃ values, b.resolve = .ok values) ∧ ∀ f ∈ b.formulas, b.validate f.expression = .ok () := by
  rw [no_problem_iff_entries]
  constructor
  · rintro ⟨clean, resolves⟩
    refine ⟨resolves, fun f hf => (isProblem_checkFormula f).mp (clean _ ?_)⟩
    exact mem_checkEntries_iff.mpr (.inl ⟨f, hf, rfl⟩)
  · rintro ⟨⟨values, resolves⟩, sound⟩
    refine ⟨fun finding hf => ?_, values, resolves⟩
    rcases mem_checkEntries_iff.mp hf with ⟨f, kept, rfl⟩ | ⟨v, kept, ofVariable⟩
    · exact (isProblem_checkFormula f).mpr (sound f kept)
    · rw [checkVariable_eq_nil resolves kept] at ofVariable
      exact absurd ofVariable List.not_mem_nil

end Book

/-! ## 6. The command -/

namespace Command

section

variable {files : Files} {environment : Option String} {arguments : List String}
  {path contents : String} {b : Book}

/-- A run that asks for a check of a file that opens is the check of its book. -/
theorem run_eq_runCheck (asked : readArguments environment false arguments = .ok (.check path))
    (file : files path = some contents) (opened : Definitions.ofText contents = .ok b) :
    run files environment arguments = (runCheck b path).output := by
  unfold run
  simp only [asked, Request.answer, openBook, file, opened]
  rfl

/-- A failure without causes is reported in one line. -/
theorem Report.text_eq_of_no_cause (context : String) :
    Report.text ⟨context, []⟩ = "Error: " ++ context ++ "\n" := by
  show "Error: " ++ context ++ "" ++ "\n" = _
  rw [String.append_empty]

/-- **What a check leaves behind**: the lines of its findings and, if some report a problem, their
number. -/
theorem output_runCheck (b : Book) (path : String) :
    (runCheck b path).output =
      let reports := b.check.map Book.Finding.text
      let problems := reports.countP Book.reportsError
      if problems = 0 then
        ⟨0, lines reports, ""⟩
      else
        ⟨1, lines reports,
          "Error: " ++ (toString problems ++ " problem(s) found in '" ++ path ++ "'") ++ "\n"⟩ := by
  have counted : (b.check.map Book.Finding.text).countP Book.reportsError = b.tally.problems := by
    rw [List.countP_map, Book.tally_eq]
    exact List.countP_congr fun finding _ => by simp [Book.Finding.reportsError_text]
  have reported : b.tally.reported.reverse = b.check := by
    rw [Book.tally_eq]
    exact List.reverse_reverse b.check
  dsimp only
  rw [counted]
  unfold runCheck Outcome.output
  dsimp only
  rw [reported]
  by_cases none : b.tally.problems = 0
  · simp only [if_pos none]
  · simp only [if_neg none, Report.text_eq_of_no_cause, String.empty_append]

end

/-- **The check command is exact**, for every file that opens. It exits with 0 if and only if the
variables can be resolved and each formula passes its own check. Otherwise it exits with 1 and counts
the problems it has reported, at least one. A problem it reports of a variable shows that the variables
cannot be resolved, and where they cannot be, that is reported or else something was before. What it
reports is what there is to report of the book, each reference to a variable that is not there under the
variable that refers to it. -/
theorem check_exact {files : Files} {environment : Option String} {arguments : List String}
    {path contents : String} {b : Book}
    (asked : readArguments environment false arguments = .ok (.check path))
    (file : files path = some contents) (opened : Definitions.ofText contents = .ok b) :
    let output := run files environment arguments
    let reports := b.check.map Book.Finding.text
    let problems := reports.countP Book.reportsError
    output.stdout = lines reports ∧
    (output.exitCode = 0 ↔
      (∃ values, b.resolve = .ok values) ∧ ∀ f ∈ b.formulas, b.validate f.expression = .ok ()) ∧
    (output.exitCode ≠ 0 → output.exitCode = 1 ∧ 1 ≤ problems ∧ output.stderr =
      "Error: " ++ (toString problems ++ " problem(s) found in '" ++ path ++ "'") ++ "\n") ∧
    (∀ v ∈ b.vars, b.checkVariable v ≠ [] → ∃ failure, b.resolve = .error failure) ∧
    (∀ failure, b.resolve = .error failure → .unresolved failure ∈ b.check ∨
      ∃ finding ∈ b.checkEntries, finding.isProblem = true) ∧
    (∀ finding, finding ∈ b.check ↔ b.Finds finding) := by
  dsimp only
  have none_iff : (b.check.map Book.Finding.text).countP Book.reportsError = 0 ↔
      ∀ finding ∈ b.check, finding.isProblem = false := by
    rw [List.countP_eq_zero]
    simp [Book.Finding.reportsError_text]
  rw [run_eq_runCheck asked file opened, output_runCheck, ← Book.no_problem_iff, ← none_iff]
  refine ⟨?_, ?_, ?_, fun v hv found => ?_, fun failure fails => ?_,
    fun finding => Book.mem_check_iff⟩
  · dsimp only
    split <;> rfl
  · dsimp only
    split
    · rename_i none
      exact iff_of_true rfl none
    · rename_i some
      exact iff_of_false Nat.one_ne_zero some
  · dsimp only
    split
    · exact fun failed => absurd rfl failed
    · rename_i some
      exact fun _ => ⟨rfl, Nat.one_le_iff_ne_zero.mpr some, rfl⟩
  · cases resolved : b.resolve with
    | error failure => exact ⟨failure, rfl⟩
    | ok values => exact absurd (Book.checkVariable_eq_nil resolved hv) found
  · exact (Book.unresolved_mem_check fails).imp_right fun before => before.2

/-- A book with a variable and a formula over variables that are not there, and a formula that is as it
should be. -/
def lacking : Book :=
  ⟨[⟨⟨"V", by decide⟩, .dynamic, "Y + W"⟩],
    [⟨⟨"F", by decide⟩, "X"⟩, ⟨⟨"G", by decide⟩, "V * \x7b\x7b#n\x7d\x7d"⟩]⟩

/-- Files that hold this book only. -/
def lackingFiles : Files :=
  fun _ => some (Definitions.toText lacking)

theorem lacking_sound : lacking.Sound where
  distinct := by decide
  kept v hv := by
    rw [List.mem_singleton.mp hv]
    refine ⟨Name.ofText_text _, nofun, fun _ => by decide, ?_⟩
    exact (by cbv : Text.trim "Y + W" = "Y + W") ▸ Text.bare_trim _
  distinct' := by decide
  kept' f hf := by
    rcases List.mem_pair.mp hf with rfl | rfl
    · exact ⟨Name.ofText_text _, by decide, (by cbv : Text.trim "X" = "X") ▸ Text.bare_trim _⟩
    · refine ⟨Name.ofText_text _, by decide, ?_⟩
      have trimmed : Text.trim "V * \x7b\x7b#n\x7d\x7d" = "V * \x7b\x7b#n\x7d\x7d" := by cbv
      exact trimmed ▸ Text.bare_trim _

/-- Its check reports the problems, and the formula that is as it should be, and exits with 1. -/
theorem lacking_check :
    let output := run lackingFiles none ["check", "-d", "f.json"]
    output.stdout = "error F: Variable X is not defined\nok    G  (needs n)\n" ++
        "error V: references undefined variable W\nerror V: references undefined variable Y\n" ∧
      output.exitCode = 1 ∧ output.stderr = "Error: 3 problem(s) found in 'f.json'\n" := by
  have asked : readArguments none false ["check", "-d", "f.json"] = .ok (.check "f.json") := by cbv
  have opened : Definitions.ofText (Definitions.toText lacking) = .ok lacking :=
    Definitions.ofText_toText lacking_sound
  obtain ⟨printed, exits, counted, -⟩ :=
    check_exact asked (rfl : lackingFiles "f.json" = some (Definitions.toText lacking)) opened
  have found : lacking.check =
      [.badFormula ⟨"F", by decide⟩ (.undefinedVariable "X"), .sound ⟨"G", by decide⟩ ["n"],
        .undefinedReference ⟨"V", by decide⟩ "W", .undefinedReference ⟨"V", by decide⟩ "Y"] := by
    cbv
  rw [found] at printed counted
  have fails : (run lackingFiles none ["check", "-d", "f.json"]).exitCode ≠ 0 := by
    intro success
    have sound := (exits.mp success).2 _ List.mem_cons_self
    cases sound.symm.trans (by cbv : _ = Except.error (Fault.undefinedVariable "X"))
  obtain ⟨code, -, message⟩ := counted fails
  exact ⟨printed.trans (by decide), code, message.trans (by decide)⟩

end Command

end Reckoner
