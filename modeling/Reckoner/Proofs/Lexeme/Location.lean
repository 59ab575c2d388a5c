import Reckoner.Proofs.Lexeme.Occurrences

/-!
# Where an expression fails

A text may have several things wrong with it, and only one is reported. Two kinds are told apart.

* A character is **foreign** if the dialect does not allow it and it stands in no placeholder that the
  dialect recognizes (`Lexeme.ForeignAt`).
* A run of digits and points is **bad** if it is no literal, or if a letter or an underscore follows it
  directly (`Lexeme.BadRunAt`). Only the longest runs count that start where a lexeme starts
  (`Lexeme.Starts`), so not those inside a name or a placeholder.

**What is reported is the leftmost foreign character, wherever it stands, and only where there is none
the leftmost bad run** (`Lexeme.fault_located`). Positions count characters, so the character that is
reported is the one of the text at the position reported.
-/

namespace Reckoner

/-! ## 1. What comes first -/

/-- **The leftmost of what a text holds**: `At before x` says that it holds `x` behind `before`, and
nothing of the kind stands further to the left. -/
def Leftmost {α : Type} (At : List Char → α → Prop) (x : α) : Prop :=
  ∃ before, At before x ∧ ∀ before' y, At before' y → before.length ≤ before'.length

section Leftmost

variable {α : Type} {At At' : List Char → α → Prop} {x y : α}

/-- Where a text holds something of a kind, something is the leftmost. -/
theorem exists_leftmost {before : List Char} (h : At before x) : ∃ y, Leftmost At y := by
  induction n : before.length using Nat.strong_induction_on generalizing before x with
  | _ n ih =>
    by_cases first : ∀ before' y, At before' y → before.length ≤ before'.length
    · exact ⟨x, before, h, first⟩
    · simp only [not_forall, Nat.not_le] at first
      obtain ⟨before', y, h', shorter⟩ := first
      exact ih before'.length (n ▸ shorter) h' rfl

/-- What is the leftmost behind a part of a text that holds nothing of the kind is so in the text. -/
theorem leftmost_behind {w : List Char}
    (h : ∀ before x, At before x ↔ ∃ before', before = w ++ before' ∧ At' before' x) :
    Leftmost At x ↔ Leftmost At' x := by
  constructor
  · rintro ⟨before, here, first⟩
    obtain ⟨before', rfl, here'⟩ := (h before x).mp here
    refine ⟨before', here', fun other y other' => ?_⟩
    have := first _ y ((h _ y).mpr ⟨other, rfl, other'⟩)
    simpa using this
  · rintro ⟨before, here, first⟩
    refine ⟨w ++ before, (h _ x).mpr ⟨before, rfl, here⟩, fun other y other' => ?_⟩
    obtain ⟨behind, rfl, behind'⟩ := (h other y).mp other'
    have := first _ y behind'
    simpa using this

/-- What stands at the front is the leftmost, and nothing else is. -/
theorem leftmost_at_front (here : At [] x) (only : ∀ y, At [] y → x = y) :
    x = y ↔ Leftmost At y := by
  constructor
  · intro same
    exact ⟨[], same ▸ here, fun _ _ _ => Nat.zero_le _⟩
  · rintro ⟨before, here', first⟩
    have front : before = [] := List.length_eq_zero_iff.mp (Nat.le_zero.mp (first _ _ here))
    exact only y (front ▸ here')

end Leftmost

namespace Lexeme

variable {d : Dialect}

/-! ## 2. Foreign characters -/

/-- The placeholders that a dialect recognizes in a text that starts at a byte offset. -/
def spansFrom (d : Dialect) (offset : Nat) (cs : List Char) : List Placeholder.Span :=
  if d.placeholders then Placeholder.spansFrom offset cs else []

/-- **A foreign character** and its position, in a text that starts at a position and a byte offset. -/
structure ForeignAt (d : Dialect) (position offset : Nat) (cs before : List Char)
    (found : Char × Nat) : Prop where
  stands : ∃ after, cs = before ++ found.1 :: after
  foreign : isAllowed d found.1 = false
  outside : ∀ s ∈ spansFrom d offset cs,
    ¬ (s.start ≤ offset + Text.byteCount before ∧ offset + Text.byteCount before < s.stop)
  place : found.2 = position + before.length

section Foreign

variable {position offset : Nat} {c : Char} {cs before : List Char} {r : Placeholder.Reading}
  {found : Char × Nat}

theorem spansFrom_found (read : placeholder? d (c :: cs) = some r) :
    spansFrom d offset (c :: cs) =
      ⟨offset, offset + Text.byteCount r.written, String.ofList r.name⟩ ::
        spansFrom d (offset + Text.byteCount r.written) r.rest := by
  have has := placeholders_of_placeholder? read
  rw [placeholder?, if_pos has] at read
  rw [spansFrom, spansFrom, if_pos has, if_pos has, Placeholder.spansFrom_read read]

theorem spansFrom_missing (missing : placeholder? d (c :: cs) = none) :
    spansFrom d offset (c :: cs) = spansFrom d (offset + c.utf8Size) cs := by
  unfold spansFrom
  split
  · rename_i has
    rw [placeholder?, if_pos has] at missing
    exact Placeholder.spansFrom_unread missing
  · rfl

/-- No placeholder starts before the text does. -/
theorem le_start_of_mem_spansFrom {s : Placeholder.Span} (h : s ∈ spansFrom d offset cs) :
    offset ≤ s.start := by
  unfold spansFrom at h
  split at h
  · obtain ⟨before, w, after, -, -, start, -⟩ := Placeholder.mem_spansFrom_iff.mp h
    omega
  · cases h

/-- **In a placeholder nothing is foreign.** -/
theorem foreignAt_found (read : placeholder? d (c :: cs) = some r) :
    ForeignAt d position offset (c :: cs) before found ↔ ∃ before', before = r.written ++ before' ∧
      ForeignAt d (position + r.written.length) (offset + Text.byteCount r.written) r.rest before'
        found := by
  have text := append_of_placeholder? read
  constructor
  · rintro ⟨⟨after, whole⟩, foreign, outside, place⟩
    rw [spansFrom_found read] at outside
    obtain ⟨here, others⟩ := List.forall_mem_cons.mp outside
    rw [← text] at whole
    have behind : ∃ before', before = r.written ++ before' ∧ r.rest = before' ++ found.1 :: after := by
      rcases List.append_eq_append_iff.mp whole with behind | ⟨inside, e, e'⟩
      · exact behind
      · cases inside with
        | nil => exact ⟨[], by simpa using e.symm, e'.symm⟩
        | cons x inside =>
          have := x.utf8Size_pos
          simp only [e, Text.byteCount_append, Text.byteCount] at here
          omega
    obtain ⟨before', rfl, rest⟩ := behind
    refine ⟨before', rfl, ⟨after, rest⟩, foreign, ?_, ?_⟩
    · rw [Text.byteCount_append, ← Nat.add_assoc] at others
      exact others
    · rw [place, List.length_append, Nat.add_assoc]
  · rintro ⟨before', rfl, ⟨after, whole⟩, foreign, outside, place⟩
    refine ⟨⟨after, ?_⟩, foreign, ?_, ?_⟩
    · rw [← text, whole, List.append_assoc]
    · rw [spansFrom_found read]
      refine List.forall_mem_cons.mpr ⟨?_, ?_⟩
      · dsimp only
        rw [Text.byteCount_append]
        omega
      · rw [Text.byteCount_append, ← Nat.add_assoc]
        exact outside
    · rw [place, List.length_append, Nat.add_assoc]

/-- An allowed character is not foreign. -/
theorem foreignAt_allowed (missing : placeholder? d (c :: cs) = none)
    (allowed : isAllowed d c = true) :
    ForeignAt d position offset (c :: cs) before found ↔ ∃ before', before = [c] ++ before' ∧
      ForeignAt d (position + 1) (offset + c.utf8Size) cs before' found := by
  constructor
  · rintro ⟨⟨after, whole⟩, foreign, outside, place⟩
    rw [spansFrom_missing missing] at outside
    cases before with
    | nil =>
      cases whole
      cases foreign.symm.trans allowed
    | cons x before =>
      obtain ⟨rfl, rest⟩ := List.cons.inj whole
      refine ⟨before, rfl, ⟨after, rest⟩, foreign, ?_, ?_⟩
      · rw [Text.byteCount, ← Nat.add_assoc] at outside
        exact outside
      · rw [place, List.length_cons, Nat.add_assoc, Nat.add_comm 1]
  · rintro ⟨before', rfl, ⟨after, whole⟩, foreign, outside, place⟩
    refine ⟨⟨after, congrArg (c :: ·) whole⟩, foreign, ?_, ?_⟩
    · rw [spansFrom_missing missing, List.singleton_append, Text.byteCount, ← Nat.add_assoc]
      exact outside
    · rw [place, List.singleton_append, List.length_cons, Nat.add_assoc, Nat.add_comm 1]

/-- **The first pass finds the leftmost foreign character.** -/
theorem foreign?_eq_some_iff (offset : Nat) :
    foreign? d position cs = some found ↔ Leftmost (ForeignAt d position offset cs) found := by
  fun_induction foreign? d position cs generalizing offset with
  | case1 =>
    constructor
    · intro h
      cases h
    · rintro ⟨before, here, -⟩
      obtain ⟨after, whole⟩ := here.stands
      simp at whole
  | case2 position c cs r read ih =>
    refine (ih (offset + Text.byteCount r.written)).trans (Iff.symm ?_)
    exact leftmost_behind fun before x => foreignAt_found read
  | case3 position c cs missing allowed ih =>
    refine (ih (offset + c.utf8Size)).trans (Iff.symm ?_)
    exact leftmost_behind fun before x => foreignAt_allowed missing allowed
  | case4 position c cs missing foreign =>
    rw [Option.some_inj]
    refine leftmost_at_front ⟨⟨cs, rfl⟩, by simpa using foreign, ?_, rfl⟩ ?_
    · intro s hs
      rw [spansFrom_missing missing] at hs
      have := le_start_of_mem_spansFrom hs
      have := c.utf8Size_pos
      simp only [Text.byteCount]
      omega
    · rintro ⟨c', p⟩ ⟨⟨after, whole⟩, _, _, place⟩
      cases whole
      exact Prod.ext rfl place.symm

end Foreign

/-! ## 3. Bad runs -/

/-- **A longest run** of digits and points, with what follows it. -/
structure Run (run rest : List Char) : Prop where
  nonempty : run ≠ []
  numeric : ∀ c ∈ run, Number.isNumeric c = true
  longest : ∀ c ∈ rest.head?, Number.isNumeric c = false

/-- **A part of a text**, with what follows it: a separator, a lexeme, or a longest run of digits and
points, whether it is a literal or not. -/
inductive Part (d : Dialect) : List Char → List Char → Prop
  | separator {c : Char} {rest : List Char} (separates : isSeparator c = true) : Part d [c] rest
  | lexeme {l : Lexeme} {w rest : List Char} (written : Written d l w) (ends : l.Ends rest) :
      Part d w rest
  | run {w rest : List Char} (longest : Run w rest) : Part d w rest

/-- **A lexeme may start in a text** behind `before`: what stands there are parts of the text. -/
inductive Starts (d : Dialect) : List Char → List Char → List Char → Prop
  | front {cs : List Char} : Starts d cs [] cs
  | behind {w cs before rest : List Char} (part : Part d w cs) (more : Starts d cs before rest) :
      Starts d (w ++ cs) (w ++ before) rest

/-- **What is wrong with a run** at a position, with what follows it: it is no literal, or it is one
and what could start a name follows it directly. -/
inductive Run.Fails (position : Nat) (run rest : List Char) : Fault → Prop
  | malformed (none : ∀ q, ¬ Literal run q) :
      Fails position run rest (.malformed (.invalidNumber (String.ofList run)))
  | glued {c : Char} {q : ℚ} (literal : Literal run q) (follows : c ∈ rest.head?)
      (start : Name.isStart c = true) :
      Fails position run rest (.invalidCharacter c (position + run.length))

/-- **A bad run** and what is wrong with it, in a text that starts at a position. -/
def BadRunAt (d : Dialect) (position : Nat) (cs before : List Char) (fault : Fault) : Prop :=
  ∃ run rest, Starts d cs before (run ++ rest) ∧ Run run rest ∧
    Run.Fails (position + before.length) run rest fault

section BadRun

variable {position : Nat} {cs before run rest w : List Char} {fault : Fault}

theorem BadRunAt.behind (part : Part d w rest)
    (h : BadRunAt d (position + w.length) rest before fault) :
    BadRunAt d position (w ++ rest) (w ++ before) fault := by
  obtain ⟨run, after, starts, longest, fails⟩ := h
  refine ⟨run, after, .behind part starts, longest, ?_⟩
  rw [List.length_append, ← Nat.add_assoc]
  exact fails

/-- A bad run at the front of a text. -/
theorem Run.Fails.badRunAt (longest : Run run rest) (h : Run.Fails position run rest fault) :
    BadRunAt d position (run ++ rest) [] fault :=
  ⟨run, rest, .front, longest, h⟩

/-- No part of a text holds a foreign character. -/
theorem foreign?_part (h : Part d w rest) (position : Nat) :
    foreign? d position (w ++ rest) = foreign? d (position + w.length) rest := by
  cases h with
  | separator separates =>
    exact foreign?_allowed (List.forall_mem_singleton.mpr (isAllowed_separator separates)) position
  | lexeme written _ => exact foreign?_written written position
  | run longest =>
    exact foreign?_allowed (fun c hc => isAllowed_numeric (longest.numeric c hc)) position

/-- Where nothing is foreign, a letter is a capital one. -/
theorem isStart_of_isNameStart {c : Char} (clean : foreign? d position rest = none)
    (first : c ∈ rest.head?) (h : Placeholder.isNameStart c = true) : Name.isStart c = true := by
  obtain ⟨behind, rfl⟩ := List.head?_eq_some_iff.mp first
  obtain ⟨separates, brace, sign⟩ := plain_of (p := Placeholder.isNameStart) (by decide) h
  rw [foreign?_plain (placeholder?_eq_none brace)] at clean
  split at clean
  · rename_i allowed
    simp only [isAllowed, sign, separates, isNumeric_of_isNameStart h, Option.isSome_none,
      Bool.false_or, Bool.and_eq_true] at allowed
    exact allowed.2
  · cases clean

/-- **A longest run is a literal that may end where it does, or it is bad.** -/
theorem Run.written_or_fails {p : Nat} (longest : Run run rest)
    (clean : foreign? d p rest = none) (position : Nat) :
    (∃ l, Written d l run ∧ l.Ends rest) ∨ ∃ fault, Run.Fails position run rest fault := by
  by_cases literal : ∃ q, Literal run q
  · obtain ⟨q, literal⟩ := literal
    obtain ⟨decimal, -, value⟩ := literal.literal?
    by_cases glued : ∃ c ∈ rest.head?, Name.isStart c = true
    · obtain ⟨c, follows, start⟩ := glued
      exact .inr ⟨_, .glued literal follows start⟩
    · refine .inl ⟨_, .number literal (value ▸ decimal.correctlyRounded), fun c follows => ?_⟩
      refine ⟨longest.longest c follows, ?_⟩
      by_contra letter
      rw [Bool.not_eq_false] at letter
      exact glued ⟨c, follows, isStart_of_isNameStart clean follows letter⟩
  · exact .inr ⟨_, .malformed fun q literal' => literal ⟨q, literal'⟩⟩

/-- **A bad run is reported and not cut off.** -/
theorem cut_fails (longest : Run run rest) (h : Run.Fails position run rest fault)
    (done : List Lexeme) : cut d done position (run ++ rest) = .error fault := by
  obtain ⟨c, cs, rfl⟩ := List.exists_cons_of_ne_nil longest.nonempty
  have numeric := longest.numeric c List.mem_cons_self
  obtain ⟨separates, brace, sign⟩ := plain_of (p := Number.isNumeric) (by decide) numeric
  have split := takeWhile_run rest
    (fun y hy => longest.numeric y (List.mem_cons_of_mem _ hy)) longest.longest
  rw [List.cons_append, cut_plain (by simp [separates]) (placeholder?_eq_none brace)]
  simp only [sign, numeric, if_true, split.1, split.2]
  cases h with
  | malformed none => simp only [Number.ofLiteral?_eq_none_iff.mpr none]
  | @glued y q literal follows start =>
    obtain ⟨decimal, read, -⟩ := literal.literal?
    have follower : rest.head?.filter Placeholder.isNameStart = some y :=
      Option.filter_eq_some_iff.mpr ⟨follows, isNameStart_of_isStart start⟩
    simp only [Number.ofLiteral?, read, Option.map_some, follower]

theorem Part.nonempty (h : Part d w rest) : 0 < w.length := by
  cases h with
  | separator => exact Nat.zero_lt_one
  | lexeme written _ =>
    obtain ⟨c, cs, rfl, -⟩ := written.head
    exact Nat.succ_pos _
  | run longest => exact List.length_pos_iff.mpr longest.nonempty

/-- A part of a text is cut off unless it is a bad run. -/
theorem cut_part (part : Part d w rest) (clean : foreign? d (position + w.length) rest = none)
    (good : ∀ fault, ¬ BadRunAt d position (w ++ rest) [] fault) (done : List Lexeme) :
    ∃ done', cut d done position (w ++ rest) = cut d done' (position + w.length) rest := by
  cases part with
  | separator separates => exact ⟨done, cut_separator separates⟩
  | lexeme written ends => exact ⟨_, cut_written written ends done position⟩
  | run longest =>
    rcases longest.written_or_fails clean position with ⟨l, written, ends⟩ | ⟨fault, fails⟩
    · exact ⟨_, cut_written written ends done position⟩
    · exact absurd (fails.badRunAt longest) (good fault)

/-- **The text is cut up to any place where a lexeme may start**, if no run before it is bad. -/
theorem cut_of_starts (starts : Starts d cs before rest) (clean : foreign? d position cs = none)
    (first : ∀ before' fault, BadRunAt d position cs before' fault →
      before.length ≤ before'.length) (done : List Lexeme) :
    ∃ done', cut d done position cs = cut d done' (position + before.length) rest := by
  -- part by part: none of them is a bad run, since that would stand before the place itself
  induction starts generalizing position done with
  | front => exact ⟨done, rfl⟩
  | @behind w cs before rest part more ih =>
    rw [foreign?_part part] at clean
    have good : ∀ fault, ¬ BadRunAt d position (w ++ cs) [] fault := by
      intro fault bad
      have := first _ _ bad
      have := part.nonempty
      simp only [List.length_append, List.length_nil] at *
      omega
    have first' : ∀ before' fault, BadRunAt d (position + w.length) cs before' fault →
        before.length ≤ before'.length := by
      intro before' fault bad
      have := first _ _ (bad.behind part)
      simpa using this
    obtain ⟨done', step⟩ := cut_part part clean good done
    obtain ⟨done'', more⟩ := ih clean first' done'
    exact ⟨done'', by rw [step, more, List.length_append, Nat.add_assoc]⟩

/-- A bad run behind a part of a text is one of the text. -/
theorem exists_badRunAt_behind (part : Part d w rest) (whole : w ++ rest = cs)
    (clean : foreign? d position cs = none)
    (more : foreign? d (position + w.length) rest = none →
      ∃ before fault, BadRunAt d (position + w.length) rest before fault) :
    ∃ before fault, BadRunAt d position cs before fault := by
  subst whole
  obtain ⟨before, fault, bad⟩ := more (foreign?_part part position ▸ clean)
  exact ⟨w ++ before, fault, bad.behind part⟩

/-- The run of digits and points that a text starts with. -/
theorem run_takeWhile {c : Char} (numeric : Number.isNumeric c = true) (cs : List Char) :
    Run (c :: cs.takeWhile Number.isNumeric) (cs.dropWhile Number.isNumeric) ∧
      c :: cs.takeWhile Number.isNumeric ++ cs.dropWhile Number.isNumeric = c :: cs :=
  ⟨⟨List.cons_ne_nil _ _, fun _ hy => mem_run numeric hy, fun _ hy => outside_dropWhile hy⟩,
    congrArg (c :: ·) List.takeWhile_append_dropWhile⟩

/-- **Where cutting fails, there is a bad run.** -/
theorem exists_badRunAt {done : List Lexeme} (clean : foreign? d position cs = none)
    (h : cut d done position cs = .error fault) :
    ∃ before fault', BadRunAt d position cs before fault' := by
  fun_induction cut d done position cs with
  | case1 => cases h
  | case2 done position c cs separates ih =>
    exact exists_badRunAt_behind (.separator separates) rfl clean fun clean => ih clean h
  | case3 done position c cs _ r read ih =>
    have text := append_of_placeholder? read
    have has := placeholders_of_placeholder? read
    rw [placeholder?, if_pos has] at read
    exact exists_badRunAt_behind (.lexeme (written_of_read? has read) trivial) text clean
      fun clean => ih clean h
  | case4 done position c cs _ _ t sign ih =>
    exact exists_badRunAt_behind (.lexeme (written_of_ofChar? sign) (ends_of_ofChar? sign cs)) rfl
      clean fun clean => ih clean h
  | case5 done position c cs _ _ _ numeric run unread =>
    obtain ⟨longest, whole⟩ := run_takeWhile numeric cs
    have fails : Run.Fails position run (cs.dropWhile Number.isNumeric) _ :=
      .malformed (Number.ofLiteral?_eq_none_iff.mp unread)
    exact ⟨[], _, whole ▸ fails.badRunAt longest⟩
  | case6 done position c cs _ _ _ numeric run rest x read follower found =>
    obtain ⟨longest, whole⟩ := run_takeWhile numeric cs
    obtain ⟨q, pattern, literal, -, -⟩ := Number.ofLiteral?_eq_some_iff.mp read
    obtain ⟨follows, letter⟩ := Option.filter_eq_some_iff.mp found
    have clean' : foreign? d (position + run.length) rest = none := by
      rw [← foreign?_part (.run longest) position, whole, clean]
    have fails : Run.Fails position run rest _ :=
      .glued literal follows (isStart_of_isNameStart clean' follows letter)
    exact ⟨[], _, whole ▸ fails.badRunAt longest⟩
  | case7 done position c cs _ _ _ numeric run rest x read _ ih =>
    obtain ⟨longest, whole⟩ := run_takeWhile numeric cs
    exact exists_badRunAt_behind (.run longest) whole clean fun clean => ih clean h
  | case8 done position c cs _ _ _ _ named name ih =>
    obtain ⟨written, ends, whole⟩ := written_takeWhile named cs
    exact exists_badRunAt_behind (.lexeme written ends) whole clean fun clean => ih clean h
  | case9 done position c cs separates missing sign numeric named =>
    -- the character starts no part at all, so the first pass would have found it
    have foreign : isAllowed d c = false := by simp [isAllowed, sign, numeric, separates, named]
    rw [foreign?_plain missing, foreign] at clean
    cases clean

/-- **The second pass stops at the leftmost bad run.** -/
theorem cut_eq_error_iff (clean : foreign? d position cs = none) (done : List Lexeme) :
    cut d done position cs = .error fault ↔ Leftmost (BadRunAt d position cs) fault := by
  -- where cutting fails with another fault than the leftmost one, it would fail in two ways
  have reported : ∀ {fault}, Leftmost (BadRunAt d position cs) fault →
      cut d done position cs = .error fault := by
    intro fault ⟨before, ⟨run, rest, starts, longest, fails⟩, first⟩
    obtain ⟨done', same⟩ := cut_of_starts starts clean first done
    rw [same, cut_fails longest fails]
  refine ⟨fun h => ?_, reported⟩
  obtain ⟨before, other, bad⟩ := exists_badRunAt clean h
  obtain ⟨other, leftmost⟩ := exists_leftmost bad
  cases h.symm.trans (reported leftmost)
  exact leftmost

end BadRun

/-! ## 4. What is reported -/

/-- **What is reported of a text**: its leftmost foreign character, and where it has none, what is wrong
with its leftmost bad run. -/
def Located (d : Dialect) (text : String) (fault : Fault) : Prop :=
  (∃ c p, Leftmost (ForeignAt d 0 0 text.toList) (c, p) ∧ fault = .invalidCharacter c p) ∨
    (∀ before found, ¬ ForeignAt d 0 0 text.toList before found) ∧
      Leftmost (BadRunAt d 0 text.toList) fault

section Report

variable {text : String} {fault : Fault}

theorem ofText_eq_error_iff : ofText d text = .error fault ↔ Located d text fault := by
  unfold ofText Located
  match first : foreign? d 0 text.toList with
  | some (c, p) =>
    have leftmost := (foreign?_eq_some_iff 0).mp first
    constructor
    · intro h
      cases h
      exact .inl ⟨c, p, leftmost, rfl⟩
    · rintro (⟨c', p', leftmost', rfl⟩ | ⟨none, -⟩)
      · cases first.symm.trans ((foreign?_eq_some_iff 0).mpr leftmost')
        rfl
      · obtain ⟨before, here, -⟩ := leftmost
        exact absurd here (none before _)
  | none =>
    have none : ∀ before found, ¬ ForeignAt d 0 0 text.toList before found := by
      intro before found here
      obtain ⟨found', leftmost⟩ := exists_leftmost here
      cases first.symm.trans ((foreign?_eq_some_iff 0).mpr leftmost)
    refine (cut_eq_error_iff first []).trans ⟨fun leftmost => .inr ⟨none, leftmost⟩, ?_⟩
    rintro (⟨c, p, ⟨before, here, -⟩, -⟩ | ⟨-, leftmost⟩)
    · exact absurd here (none before _)
    · exact leftmost

theorem Starts.append {cs before rest : List Char} (h : Starts d cs before rest) :
    cs = before ++ rest := by
  induction h with
  | front => rfl
  | behind _ _ ih => rw [List.append_assoc, ← ih]

/-- What stands behind the beginning of a text is found at its length. -/
theorem getElem?_behind {before rest : List Char} {c : Char} (first : c ∈ rest.head?) :
    (before ++ rest)[before.length]? = some c := by
  rw [List.getElem?_append_right (Nat.le_refl _), Nat.sub_self, ← List.head?_eq_getElem?]
  exact first

/-- **The character that is reported stands at the position that is reported.** -/
theorem Located.getElem? {c : Char} {p : Nat} (h : Located d text (.invalidCharacter c p)) :
    text.toList[p]? = some c := by
  rcases h with ⟨c', p', ⟨before, here, -⟩, same⟩ | ⟨-, before, ⟨run, rest, starts, -, fails⟩, -⟩
  · cases same
    obtain ⟨after, whole⟩ := here.stands
    have place : p = 0 + before.length := here.place
    rw [place, Nat.zero_add, whole]
    exact getElem?_behind rfl
  · cases fails with
    | glued literal follows start =>
      rw [Nat.zero_add, ← List.length_append, starts.append, ← List.append_assoc]
      exact getElem?_behind follows

end Report

/-- **What is reported of a text is where it fails.** Reading a text fails with its leftmost foreign
character, wherever it stands; where no character is foreign, with the leftmost of the longest runs of
digits and points that is no literal or that a name would follow directly; and otherwise not at all. A
character that is reported is the one of the text at the position reported. -/
theorem fault_located (d : Dialect) (text : String) :
    (∀ fault, ofText d text = .error fault ↔ Located d text fault) ∧
      ∀ c p, ofText d text = .error (.invalidCharacter c p) → text.toList[p]? = some c :=
  ⟨fun _ => ofText_eq_error_iff, fun _ _ h => (ofText_eq_error_iff.mp h).getElem?⟩

example : ofText .numeric "1..2 + a" = .error (.invalidCharacter 'a' 7) := by decide +kernel

example : ofText .formula "\x7b\x7b\u2003#x\x7d\x7d + 2A" = .error (.invalidCharacter 'A' 11) := by
  decide +kernel

end Lexeme

end Reckoner
