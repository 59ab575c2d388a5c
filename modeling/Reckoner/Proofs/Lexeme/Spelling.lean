import Reckoner.Lexeme.Reading
import Reckoner.Proofs.Lexeme.Literal

/-!
# How an expression is spelled

A text spells a list of lexemes if it consists of them, each as it is written in the dialect, with gaps
of spaces and tabs before, between and behind them (`Lexeme.Spelled`). A literal may not be followed
directly by what could belong to a number or start a name, and a name not by what could go on in it;
otherwise lexemes may touch. Nothing is said of how a text is read.

**A text is read as a list of lexemes exactly if it spells them** (`Lexeme.reads_iff_spells`), and in
one way only: the gaps, and where each lexeme starts and ends, are determined by the text.
-/

namespace Reckoner

/-! ## 1. The spelling of a lexeme -/

namespace Lexeme

/-- **How a lexeme is written** in a dialect. -/
inductive Written (d : Dialect) : Lexeme → List Char → Prop
  | operator (o : Operator) : Written d (.token (.operator o)) [o.symbol]
  | opening : Written d (.token .opening) ['(']
  | closing : Written d (.token .closing) [')']
  | number {cs : List Char} {q : ℚ} {pattern : Nat} (literal : Literal cs q)
      (rounded : Binary64.CorrectlyRounded q pattern) :
      Written d (.token (.number (.ofPattern false pattern))) cs
  | reference {c : Char} {cs : List Char} (allowed : d.references = true)
      (start : Name.isStart c = true) (parts : ∀ x ∈ cs, Name.isPart x = true) :
      Written d (.symbol (.reference (String.ofList (c :: cs)))) (c :: cs)
  | placeholder {c : Char} {before cs behind : List Char} (allowed : d.placeholders = true)
      (blank : ∀ x ∈ before, Text.isBlank x = true) (start : Placeholder.isNameStart c = true)
      (parts : ∀ x ∈ cs, Placeholder.isNamePart x = true)
      (blank' : ∀ x ∈ behind, Text.isBlank x = true) :
      Written d (.symbol (.placeholder (String.ofList (c :: cs))))
        ('{' :: '{' :: (before ++ '#' :: (c :: cs ++ (behind ++ ['}', '}']))))

/-- What may follow a lexeme directly: behind a literal no digit, no point, no letter and no
underscore, behind a name nothing that could go on in it. -/
def Ends : Lexeme → List Char → Prop
  | .token (.number _), rest =>
    ∀ c ∈ rest.head?, Number.isNumeric c = false ∧ Placeholder.isNameStart c = false
  | .symbol (.reference _), rest => ∀ c ∈ rest.head?, Name.isPart c = false
  | _, _ => True

theorem isSeparator_iff {c : Char} : isSeparator c = true ↔ c = ' ' ∨ c = '\t' := by
  simp [isSeparator]

/-- A separator may follow any lexeme, and so may the end of the text. -/
theorem ends_of_separator {l : Lexeme} {rest : List Char}
    (h : ∀ c ∈ rest.head?, isSeparator c = true) : l.Ends rest := by
  have separator : ∀ c, isSeparator c = true →
      (Number.isNumeric c = false ∧ Placeholder.isNameStart c = false) ∧ Name.isPart c = false := by
    intro c separates
    rcases isSeparator_iff.mp separates with rfl | rfl
    · decide
    · decide
  match l with
  | token (.number x) => exact fun c hc => (separator c (h c hc)).1
  | symbol (.reference name) => exact fun c hc => (separator c (h c hc)).2
  | token (.operator _) | token .opening | token .closing | symbol (.placeholder _) => trivial

/-- What may follow a lexeme is said of one character. -/
theorem Ends.congr {l : Lexeme} {rest rest' : List Char} (h : l.Ends rest)
    (same : rest'.head? = rest.head?) : l.Ends rest' := by
  match l, h with
  | token (.number x), h => exact fun c hc => h c (same ▸ hc)
  | symbol (.reference name), h => exact fun c hc => h c (same ▸ hc)
  | token (.operator _), _ | token .opening, _ | token .closing, _ | symbol (.placeholder _), _ =>
    trivial

/-- A lexeme of a text, as it is written, and the gap before it. -/
structure Piece where
  gap : List Char
  lexeme : Lexeme
  written : List Char

/-- **A text is spelled by its pieces** and a last gap. -/
inductive Spelled (d : Dialect) : List Piece → List Char → List Char → Prop
  | last {gap : List Char} (blank : ∀ c ∈ gap, isSeparator c = true) : Spelled d [] gap gap
  | piece {p : Piece} {ps : List Piece} {last rest : List Char}
      (blank : ∀ c ∈ p.gap, isSeparator c = true) (written : Written d p.lexeme p.written)
      (ends : p.lexeme.Ends rest) (more : Spelled d ps last rest) :
      Spelled d (p :: ps) last (p.gap ++ (p.written ++ rest))

/-! ## 2. Placeholders -/

theorem isNamePart_of_isNameStart {c : Char} (h : Placeholder.isNameStart c = true) :
    Placeholder.isNamePart c = true := by
  rcases Bool.or_eq_true_iff.mp h with letter | underscore
  · simp [Placeholder.isNamePart, Char.isAlphanum, letter]
  · simp [Placeholder.isNamePart, underscore]

/-- A name holds no white space. -/
theorem isNamePart_eq_false {c : Char} (h : Text.isBlank c = true) :
    Placeholder.isNamePart c = false := by
  refine Bool.not_eq_true _ ▸ fun part => ?_
  have range : (48 ≤ c.toNat ∧ c.toNat ≤ 57) ∨ (65 ≤ c.toNat ∧ c.toNat ≤ 90) ∨
      (97 ≤ c.toNat ∧ c.toNat ≤ 122) ∨ c.toNat = 95 := by
    simp only [Placeholder.isNamePart, Char.isAlphanum, Char.isAlpha, Char.isUpper, Char.isLower,
      Char.isDigit, Bool.or_eq_true, Bool.and_eq_true, decide_eq_true_eq, beq_iff_eq,
      UInt32.le_iff_toNat_le] at part
    rcases part with ((upper | lower) | digit) | rfl
    · exact .inr (.inl upper)
    · exact .inr (.inr (.inl lower))
    · exact .inl digit
    · exact .inr (.inr (.inr rfl))
  simp only [Text.isBlank, Bool.or_eq_true, Bool.and_eq_true, decide_eq_true_eq, beq_iff_eq] at h
  omega

/-- **A placeholder is read as it is written**, whatever follows it. -/
theorem read?_written {c : Char} {before cs behind : List Char}
    (blank : ∀ x ∈ before, Text.isBlank x = true) (start : Placeholder.isNameStart c = true)
    (parts : ∀ x ∈ cs, Placeholder.isNamePart x = true)
    (blank' : ∀ x ∈ behind, Text.isBlank x = true) (rest : List Char) :
    Placeholder.read?
        ('{' :: '{' :: (before ++ '#' :: (c :: cs ++ (behind ++ ['}', '}']))) ++ rest) =
      some ⟨c :: cs, '{' :: '{' :: (before ++ '#' :: (c :: cs ++ (behind ++ ['}', '}']))), rest⟩ := by
  have inside : ∀ x ∈ c :: cs, Placeholder.isNamePart x = true :=
    List.forall_mem_cons.mpr ⟨isNamePart_of_isNameStart start, parts⟩
  have outside : ∀ x ∈ (behind ++ '}' :: '}' :: rest).head?, Placeholder.isNamePart x = false := by
    intro x hx
    cases behind with
    | nil => cases hx; decide
    | cons y behind => cases hx; exact isNamePart_eq_false (blank' x List.mem_cons_self)
  have outer := takeWhile_run ('#' :: (c :: cs ++ (behind ++ '}' :: '}' :: rest))) blank
    fun x hx => by cases hx; decide
  have name := takeWhile_run (behind ++ '}' :: '}' :: rest) inside outside
  have inner := takeWhile_run ('}' :: '}' :: rest) blank' fun x hx => by cases hx; decide
  have isName : Placeholder.isName (c :: cs) = true := by
    simp only [Placeholder.isName, List.head?_cons, Option.any_some, start, Bool.true_and,
      List.all_eq_true]
    exact inside
  simp only [List.cons_append, List.append_assoc, List.nil_append] at outer name inner ⊢
  simp only [Placeholder.read?, outer.1, outer.2, name.1, name.2, inner.1, inner.2, isName, if_true,
    List.cons_append, List.append_assoc]

/-- What is read as a placeholder is written as one. -/
theorem written_of_read? {d : Dialect} (allowed : d.placeholders = true) {cs : List Char}
    {r : Placeholder.Reading} (h : Placeholder.read? cs = some r) :
    Written d (symbol (.placeholder (String.ofList r.name))) r.written := by
  unfold Placeholder.read? at h
  split at h
  · rename_i cs
    split at h
    · rename_i inner hash
      dsimp only at h
      split at h
      · split at h
        · rename_i named
          cases h
          generalize hn : inner.takeWhile Placeholder.isNamePart = name at *
          cases name with
          | nil => cases named
          | cons c name =>
            simp only [Placeholder.isName, List.head?_cons, Option.any_some, Bool.and_eq_true,
              List.all_eq_true] at named
            have written : Written d (symbol (.placeholder (String.ofList (c :: name))))
                ('{' :: '{' :: (cs.takeWhile Text.isBlank ++ '#' :: (c :: name ++
                  ((inner.dropWhile Placeholder.isNamePart).takeWhile Text.isBlank ++
                    ['}', '}'])))) :=
              .placeholder allowed (fun x hx => List.mem_takeWhile_imp hx) named.1
                (fun x hx => named.2 x (List.mem_cons_of_mem _ hx))
                (fun x hx => List.mem_takeWhile_imp hx)
            simpa only [List.cons_append, List.append_assoc] using written
        · cases h
      · cases h
    · cases h
  · cases h

/-! ## 3. The classes of characters -/

/-- A class that holds no separator, no brace and no sign meets none of the other rules. -/
theorem plain_of {p : Char → Bool}
    (h : [' ', '\t', '{', '+', '-', '*', '/', '(', ')'].any p = false) {c : Char}
    (hc : p c = true) : isSeparator c = false ∧ c ≠ '{' ∧ Token.ofChar? c = none := by
  have other : ∀ x ∈ [' ', '\t', '{', '+', '-', '*', '/', '(', ')'], c ≠ x := by
    rintro x hx rfl
    exact absurd hc (List.any_eq_false.mp h c hx)
  refine ⟨?_, other '{' (by decide), ?_⟩
  · simp only [isSeparator, Bool.or_eq_false_iff, beq_eq_false_iff_ne]
    exact ⟨other ' ' (by decide), other '\t' (by decide)⟩
  · unfold Token.ofChar?
    split <;> first | rfl | exact absurd rfl (other _ (by decide))

/-- A sign separates nothing and starts no placeholder. -/
theorem sign_of_ofChar? {c : Char} {t : Token} (h : Token.ofChar? c = some t) :
    isSeparator c = false ∧ c ≠ '{' := by
  unfold Token.ofChar? at h
  split at h <;> first | decide | cases h

theorem isNameStart_of_isStart {c : Char} (h : Name.isStart c = true) :
    Placeholder.isNameStart c = true := by
  rcases Bool.or_eq_true_iff.mp h with upper | underscore
  · simp [Placeholder.isNameStart, Char.isAlpha, upper]
  · simp [Placeholder.isNameStart, underscore]

/-- A letter is neither a digit nor a point. -/
theorem isNumeric_of_isNameStart {c : Char} (h : Placeholder.isNameStart c = true) :
    Number.isNumeric c = false := by
  rcases Bool.or_eq_true_iff.mp h with letter | underscore
  · have low : 65 ≤ c.val.toNat := by
      simp only [Char.isAlpha, Char.isUpper, Char.isLower, Bool.or_eq_true, Bool.and_eq_true,
        decide_eq_true_eq, UInt32.le_iff_toNat_le] at letter
      rcases letter with upper | lower
      · exact upper.1
      · exact Nat.le_trans (m := 97) (by decide) lower.1
    refine Bool.or_eq_false_iff.mpr ⟨?_, ?_⟩
    · simp only [Char.isDigit, Bool.and_eq_false_iff, decide_eq_false_iff_not]
      refine .inr fun high => ?_
      have : c.val.toNat ≤ 57 := UInt32.le_iff_toNat_le.mp high
      omega
    · refine beq_eq_false_iff_ne.mpr ?_
      rintro rfl
      exact absurd low (by decide)
  · rw [beq_iff_eq.mp underscore]
    rfl

/-- Only a brace starts a placeholder. -/
theorem placeholder?_eq_none {d : Dialect} {c : Char} {cs : List Char} (h : c ≠ '{') :
    placeholder? d (c :: cs) = none := by
  unfold placeholder?
  split
  · unfold Placeholder.read?
    split
    · rename_i e
      cases e
      exact absurd rfl h
    · rfl
  · rfl

/-! ## 4. Cutting a lexeme off -/

section Cut

variable {d : Dialect} {done : List Lexeme} {position : Nat} {c : Char} {cs rest : List Char}

theorem cut_separator (h : isSeparator c = true) :
    cut d done position (c :: cs) = cut d done (position + 1) cs := by
  rw [cut, if_pos h]

/-- Where no placeholder starts, the first character decides what is cut off. -/
theorem cut_plain (separates : ¬ isSeparator c = true) (plain : placeholder? d (c :: cs) = none) :
    cut d done position (c :: cs) =
      match Token.ofChar? c with
      | some t => cut d (token t :: done) (position + 1) cs
      | none =>
        if Number.isNumeric c then
          let run := c :: cs.takeWhile Number.isNumeric
          let rest := cs.dropWhile Number.isNumeric
          match Number.ofLiteral? run with
          | none => .error (.malformed (.invalidNumber (String.ofList run)))
          | some x =>
            match rest.head?.filter Placeholder.isNameStart with
            | some follower => .error (.invalidCharacter follower (position + run.length))
            | none => cut d (token (.number x) :: done) (position + run.length) rest
        else if d.references && Name.isStart c then
          let name := c :: cs.takeWhile Name.isPart
          cut d (symbol (.reference (String.ofList name)) :: done)
            (position + name.length) (cs.dropWhile Name.isPart)
        else
          .error (.invalidCharacter c position) := by
  rw [cut, if_neg separates]
  split
  · rename_i found
    cases plain.symm.trans found
  · rfl

theorem cut_sign {t : Token} (h : Token.ofChar? c = some t) :
    cut d done position (c :: cs) = cut d (token t :: done) (position + 1) cs := by
  obtain ⟨separates, brace⟩ := sign_of_ofChar? h
  rw [cut_plain (by simp [separates]) (placeholder?_eq_none brace), h]

theorem cut_number {x : Binary64} (numeric : ∀ y ∈ c :: cs, Number.isNumeric y = true)
    (read : Number.ofLiteral? (c :: cs) = some x) (ends : (token (.number x)).Ends rest) :
    cut d done position (c :: cs ++ rest) =
      cut d (token (.number x) :: done) (position + (c :: cs).length) rest := by
  obtain ⟨separates, brace, sign⟩ := plain_of (p := Number.isNumeric) (by decide)
    (numeric c List.mem_cons_self)
  have run := takeWhile_run rest (fun y hy => numeric y (List.mem_cons_of_mem _ hy))
    fun y hy => (ends y hy).1
  have follower : rest.head?.filter Placeholder.isNameStart = none := by
    refine Option.filter_eq_none_iff.mpr fun y hy => ?_
    simp [(ends y hy).2]
  rw [List.cons_append, cut_plain (by simp [separates]) (placeholder?_eq_none brace)]
  simp only [sign, numeric c List.mem_cons_self, if_true, run.1, run.2, read, follower]

theorem cut_reference (allowed : d.references = true) (start : Name.isStart c = true)
    (parts : ∀ y ∈ cs, Name.isPart y = true)
    (ends : ∀ y ∈ rest.head?, Name.isPart y = false) :
    cut d done position (c :: cs ++ rest) =
      cut d (symbol (.reference (String.ofList (c :: cs))) :: done)
        (position + (c :: cs).length) rest := by
  obtain ⟨separates, brace, sign⟩ := plain_of (p := Name.isStart) (by decide) start
  have run := takeWhile_run rest parts ends
  rw [List.cons_append, cut_plain (by simp [separates]) (placeholder?_eq_none brace)]
  simp only [sign, isNumeric_of_isNameStart (isNameStart_of_isStart start), Bool.false_eq_true,
    if_false, allowed, start, Bool.and_self, if_true, run.1, run.2]

theorem cut_placeholder {r : Placeholder.Reading} (brace : isSeparator c = false)
    (found : placeholder? d (c :: cs) = some r) :
    cut d done position (c :: cs) =
      cut d (symbol (.placeholder (String.ofList r.name)) :: done)
        (position + r.written.length) r.rest := by
  rw [cut, if_neg (by simp [brace])]
  split
  · rename_i found'
    cases found.symm.trans found'
    rfl
  · rename_i missing
    cases found.symm.trans missing

end Cut

/-! ## 5. What is spelled is read -/

section Reads

variable {d : Dialect} {l : Lexeme} {w rest gap cs : List Char}

/-- **A lexeme is cut off as it is written**, if what follows may follow it. -/
theorem cut_written (h : Written d l w) (ends : l.Ends rest) (done : List Lexeme) (position : Nat) :
    cut d done position (w ++ rest) = cut d (l :: done) (position + w.length) rest := by
  cases h with
  | operator o => exact cut_sign (Token.ofChar?_symbol o)
  | opening => exact cut_sign rfl
  | closing => exact cut_sign rfl
  | number literal rounded =>
    obtain ⟨nonempty, numeric⟩ := literal.isNumeric
    obtain ⟨c, cs, rfl⟩ := List.exists_cons_of_ne_nil nonempty
    exact cut_number numeric (Number.ofLiteral?_eq_some_iff.mpr ⟨_, _, literal, rounded, rfl⟩) ends
  | reference allowed start parts => exact cut_reference allowed start parts ends
  | @placeholder c before cs behind allowed blank start parts blank' =>
    have found : placeholder? d
        ('{' :: '{' :: (before ++ '#' :: (c :: cs ++ (behind ++ ['}', '}']))) ++ rest) = _ :=
      (if_pos allowed).trans (read?_written blank start parts blank' rest)
    exact cut_placeholder (by decide) found

theorem cut_gap (blank : ∀ c ∈ gap, isSeparator c = true) (done : List Lexeme) (position : Nat) :
    cut d done position (gap ++ cs) = cut d done (position + gap.length) cs := by
  induction gap generalizing position with
  | nil => rfl
  | cons c gap ih =>
    rw [List.cons_append, cut_separator (blank c List.mem_cons_self),
      ih (fun x hx => blank x (List.mem_cons_of_mem _ hx)), List.length_cons, Nat.add_assoc,
      Nat.add_comm 1]

/-- Cutting gives the lexemes of the pieces. -/
theorem cut_spelled {ps : List Piece} {last : List Char} (h : Spelled d ps last cs)
    (done : List Lexeme) (position : Nat) :
    cut d done position cs = .ok (done.reverse ++ ps.map Piece.lexeme) := by
  induction h generalizing done position with
  | @last gap blank =>
    have atEnd : cut d done position (gap ++ []) = _ := cut_gap blank done position
    rw [List.append_nil] at atEnd
    rw [atEnd, cut, List.map_nil, List.append_nil]
  | piece blank written ends _ ih =>
    rw [cut_gap blank, cut_written written ends, ih]
    simp

/-- Where no placeholder starts, the alphabet decides. -/
theorem foreign?_plain {position : Nat} {c : Char} (plain : placeholder? d (c :: cs) = none) :
    foreign? d position (c :: cs) =
      if isAllowed d c then foreign? d (position + 1) cs else some (c, position) := by
  rw [foreign?]
  split
  · rename_i found
    cases plain.symm.trans found
  · rfl

/-- A placeholder holds nothing foreign. -/
theorem foreign?_placeholder {position : Nat} {c : Char} {r : Placeholder.Reading}
    (found : placeholder? d (c :: cs) = some r) :
    foreign? d position (c :: cs) = foreign? d (position + r.written.length) r.rest := by
  rw [foreign?]
  split
  · rename_i found'
    cases found.symm.trans found'
    rfl
  · rename_i missing
    cases found.symm.trans missing

theorem foreign?_allowed (allowed : ∀ c ∈ w, c ≠ '{' ∧ isAllowed d c = true) (position : Nat) :
    foreign? d position (w ++ rest) = foreign? d (position + w.length) rest := by
  induction w generalizing position with
  | nil => rfl
  | cons c w ih =>
    obtain ⟨⟨brace, hc⟩, hw⟩ := List.forall_mem_cons.mp allowed
    rw [List.cons_append, foreign?_plain (placeholder?_eq_none brace), if_pos hc, ih hw,
      List.length_cons, Nat.add_assoc, Nat.add_comm 1]

theorem isAllowed_separator {c : Char} (h : isSeparator c = true) :
    c ≠ '{' ∧ isAllowed d c = true := by
  refine ⟨?_, by simp [isAllowed, h]⟩
  rintro rfl
  cases h

theorem isAllowed_numeric {c : Char} (h : Number.isNumeric c = true) :
    c ≠ '{' ∧ isAllowed d c = true :=
  ⟨(plain_of (p := Number.isNumeric) (by decide) h).2.1, by simp [isAllowed, h]⟩

/-- A lexeme holds nothing foreign. -/
theorem foreign?_written (h : Written d l w) (position : Nat) :
    foreign? d position (w ++ rest) = foreign? d (position + w.length) rest := by
  have sign : ∀ {c : Char} {t : Token}, Token.ofChar? c = some t →
      foreign? d position ([c] ++ rest) = foreign? d (position + 1) rest := by
    intro c t hc
    refine foreign?_allowed (w := [c]) (fun x hx => ?_) position
    rw [List.mem_singleton.mp hx]
    exact ⟨(sign_of_ofChar? hc).2, by simp [isAllowed, hc]⟩
  cases h with
  | operator o => exact sign (Token.ofChar?_symbol o)
  | opening => exact sign rfl
  | closing => exact sign rfl
  | number literal rounded =>
    exact foreign?_allowed (fun c hc => isAllowed_numeric (literal.isNumeric.2 c hc)) position
  | @reference c cs allowed start parts =>
    refine foreign?_allowed (fun x hx => ?_) position
    have part : Name.isPart x = true := by
      rcases List.mem_cons.mp hx with rfl | hx
      · exact Name.isPart_of_isStart start
      · exact parts x hx
    by_cases hs : Name.isStart x = true
    · exact ⟨(plain_of (p := Name.isStart) (by decide) hs).2.1, by simp [isAllowed, allowed, hs]⟩
    · refine isAllowed_numeric ?_
      simp only [Name.isPart, Name.isStart, Bool.or_eq_true, not_or] at part hs
      simp only [Number.isNumeric, Bool.or_eq_true]
      exact .inl ((part.resolve_right hs.2).resolve_left hs.1)
  | @placeholder c before cs behind allowed blank start parts blank' =>
    have found : placeholder? d
        ('{' :: '{' :: (before ++ '#' :: (c :: cs ++ (behind ++ ['}', '}']))) ++ rest) = _ :=
      (if_pos allowed).trans (read?_written blank start parts blank' rest)
    exact foreign?_placeholder found

/-- A text that is spelled holds nothing foreign. -/
theorem foreign?_spelled {ps : List Piece} {last : List Char} (h : Spelled d ps last cs)
    (position : Nat) : foreign? d position cs = none := by
  induction h generalizing position with
  | @last gap blank =>
    have atEnd : foreign? d position (gap ++ []) = _ :=
      foreign?_allowed (fun c hc => isAllowed_separator (blank c hc)) position
    rw [List.append_nil] at atEnd
    rw [atEnd, foreign?]
  | piece blank written _ _ ih =>
    rw [foreign?_allowed fun c hc => isAllowed_separator (blank c hc), foreign?_written written, ih]

end Reads

/-! ## 6. What is read is spelled -/

section Spells

variable {d : Dialect} {cs : List Char}

/-- A separator before a text belongs to its first gap. -/
theorem Spelled.cons_separator {ps : List Piece} {last : List Char} (h : Spelled d ps last cs)
    {c : Char} (hc : isSeparator c = true) :
    ∃ ps' last', Spelled d ps' last' (c :: cs) ∧ ps'.map Piece.lexeme = ps.map Piece.lexeme := by
  cases h with
  | last blank => exact ⟨[], c :: cs, .last (List.forall_mem_cons.mpr ⟨hc, blank⟩), rfl⟩
  | @piece p ps last rest blank written ends more =>
    exact ⟨⟨c :: p.gap, p.lexeme, p.written⟩ :: ps, last,
      .piece (p := ⟨c :: p.gap, p.lexeme, p.written⟩) (List.forall_mem_cons.mpr ⟨hc, blank⟩)
        written ends more, rfl⟩

/-- A lexeme without a gap before a text that is spelled. -/
theorem Spelled.cons {l : Lexeme} {w rest : List Char} (written : Written d l w)
    (ends : l.Ends rest) {ps : List Piece} {last : List Char} (h : Spelled d ps last rest) :
    Spelled d (⟨[], l, w⟩ :: ps) last (w ++ rest) :=
  .piece (p := ⟨[], l, w⟩) (fun _ hc => absurd hc List.not_mem_nil) written ends h

/-- A sign is written as its character. -/
theorem written_of_ofChar? {c : Char} {t : Token} (h : Token.ofChar? c = some t) :
    Written d (token t) [c] := by
  unfold Token.ofChar? at h
  split at h
  · cases h; exact .operator .add
  · cases h; exact .operator .subtract
  · cases h; exact .operator .multiply
  · cases h; exact .operator .divide
  · cases h; exact .opening
  · cases h; exact .closing
  · cases h

/-- Anything may follow a sign. -/
theorem ends_of_ofChar? {c : Char} {t : Token} (h : Token.ofChar? c = some t) (rest : List Char) :
    (token t).Ends rest := by
  unfold Token.ofChar? at h
  split at h <;> cases h <;> trivial

/-- The name that a text starts with is written as a reference, and ends where it may. -/
theorem written_takeWhile {c : Char} (named : (d.references && Name.isStart c) = true)
    (cs : List Char) :
    let l := symbol (.reference (String.ofList (c :: cs.takeWhile Name.isPart)))
    Written d l (c :: cs.takeWhile Name.isPart) ∧ l.Ends (cs.dropWhile Name.isPart) ∧
      c :: cs.takeWhile Name.isPart ++ cs.dropWhile Name.isPart = c :: cs := by
  obtain ⟨allowed, start⟩ := Bool.and_eq_true_iff.mp named
  exact ⟨.reference allowed start fun _ hx => List.mem_takeWhile_imp hx,
    fun _ hy => outside_dropWhile hy, congrArg (c :: ·) List.takeWhile_append_dropWhile⟩

/-- **The lexemes that a text is cut into spell it.** -/
theorem spelled_of_cut {done ls : List Lexeme} {position : Nat}
    (h : cut d done position cs = .ok ls) :
    ∃ ps last, Spelled d ps last cs ∧ ls = done.reverse ++ ps.map Piece.lexeme := by
  fun_induction cut d done position cs with
  | case1 =>
    cases h
    exact ⟨[], [], .last fun _ hc => absurd hc List.not_mem_nil, (List.append_nil _).symm⟩
  | case2 done position c cs separates ih =>
    obtain ⟨ps, last, spelled, rfl⟩ := ih h
    obtain ⟨ps', last', spelled', same⟩ := spelled.cons_separator separates
    exact ⟨ps', last', spelled', by rw [same]⟩
  | case3 done position c cs _ r found ih =>
    obtain ⟨ps, last, spelled, rfl⟩ := ih h
    have allowed : d.placeholders = true := by
      unfold placeholder? at found
      split at found
      · assumption
      · cases found
    have read : Placeholder.read? (c :: cs) = some r := (if_pos allowed).symm.trans found
    rw [← Placeholder.written_append_rest read]
    exact ⟨_, last, .cons (written_of_read? allowed read) trivial spelled, by simp⟩
  | case4 done position c cs _ _ t sign ih =>
    obtain ⟨ps, last, spelled, rfl⟩ := ih h
    exact ⟨_, last, .cons (written_of_ofChar? sign) (ends_of_ofChar? sign cs) spelled, by simp⟩
  | case5 => cases h
  | case6 => cases h
  | case7 done position c cs _ _ _ numeric run rest x read follower ih =>
    obtain ⟨ps, last, spelled, rfl⟩ := ih h
    obtain ⟨q, pattern, literal, rounded, rfl⟩ := Number.ofLiteral?_eq_some_iff.mp read
    have ends : (token (.number (.ofPattern false pattern))).Ends rest := by
      intro y hy
      refine ⟨outside_dropWhile hy, ?_⟩
      simpa using Option.filter_eq_none_iff.mp follower y hy
    have whole : run ++ rest = c :: cs :=
      congrArg (c :: ·) (List.takeWhile_append_dropWhile (p := Number.isNumeric) (l := cs))
    rw [← whole]
    exact ⟨_, last, .cons (.number literal rounded) ends spelled, by simp⟩
  | case8 done position c cs _ _ _ _ named name ih =>
    obtain ⟨ps, last, spelled, rfl⟩ := ih h
    obtain ⟨written, ends, whole⟩ := written_takeWhile named cs
    rw [← whole]
    exact ⟨_, last, .cons written ends spelled, by simp [name]⟩
  | case9 => cases h

end Spells

/-! ## 7. There is one spelling -/

section Unique

variable {d : Dialect} {cs : List Char}

/-- What a lexeme of a given kind takes of a text that starts with it. -/
def extent : Lexeme → List Char → List Char
  | token (.number _), cs => cs.takeWhile Number.isNumeric
  | token _, cs => cs.take 1
  | symbol (.reference _), cs => cs.takeWhile Name.isPart
  | symbol (.placeholder _), cs => ((Placeholder.read? cs).map (·.written)).getD []

/-- Where a lexeme ends is determined by the text. -/
theorem Written.eq_extent {l : Lexeme} {w rest : List Char} (h : Written d l w)
    (ends : l.Ends rest) : w = l.extent (w ++ rest) := by
  cases h with
  | operator o => rfl
  | opening => rfl
  | closing => rfl
  | number literal rounded =>
    exact (takeWhile_run rest literal.isNumeric.2 fun y hy => (ends y hy).1).1.symm
  | @reference c cs allowed start parts =>
    have inside : ∀ x ∈ c :: cs, Name.isPart x = true :=
      List.forall_mem_cons.mpr ⟨Name.isPart_of_isStart start, parts⟩
    exact (takeWhile_run rest inside ends).1.symm
  | placeholder allowed blank start parts blank' =>
    simp only [extent, read?_written blank start parts blank', Option.map_some, Option.getD_some]

/-- A lexeme does not start with a separator. -/
theorem Written.head {l : Lexeme} {w : List Char} (h : Written d l w) :
    ∃ c cs, w = c :: cs ∧ isSeparator c = false := by
  cases h with
  | operator o => exact ⟨_, _, rfl, (sign_of_ofChar? (Token.ofChar?_symbol o)).1⟩
  | opening => exact ⟨_, _, rfl, rfl⟩
  | closing => exact ⟨_, _, rfl, rfl⟩
  | number literal rounded =>
    obtain ⟨nonempty, numeric⟩ := literal.isNumeric
    obtain ⟨c, cs, rfl⟩ := List.exists_cons_of_ne_nil nonempty
    exact ⟨c, cs, rfl, (plain_of (by decide) (numeric c List.mem_cons_self)).1⟩
  | reference allowed start parts => exact ⟨_, _, rfl, (plain_of (by decide) start).1⟩
  | placeholder => exact ⟨_, _, rfl, rfl⟩

/-- Behind a gap no separator stands, so a gap ends where the separators do. -/
theorem gap_eq {gap w : List Char} {l : Lexeme} (rest : List Char) (blank : ∀ c ∈ gap, isSeparator c = true)
    (h : Written d l w) :
    (gap ++ (w ++ rest)).takeWhile isSeparator = gap ∧
      (gap ++ (w ++ rest)).dropWhile isSeparator = w ++ rest := by
  obtain ⟨c, cs, rfl, separates⟩ := h.head
  refine takeWhile_run (c :: cs ++ rest) blank fun y hy => ?_
  cases hy
  exact separates

/-- **A text that spells the same lexemes in two ways spells them in one.** -/
theorem Spelled.unique_of_lexemes {ps ps' : List Piece} {last last' : List Char}
    (h : Spelled d ps last cs) (h' : Spelled d ps' last' cs)
    (same : ps.map Piece.lexeme = ps'.map Piece.lexeme) : ps = ps' ∧ last = last' := by
  induction h generalizing ps' with
  | last blank =>
    cases h' with
    | last => exact ⟨rfl, rfl⟩
    | piece => cases same
  | @piece p ps last rest blank written ends more ih =>
    generalize text : p.gap ++ (p.written ++ rest) = cs at h'
    cases h' with
    | last => cases same
    | @piece p' ps' last' rest' blank' written' ends' more' =>
      obtain ⟨sameLexeme, sameRest⟩ := List.cons.inj same
      have g := gap_eq rest blank written
      have g' := gap_eq rest' blank' written'
      rw [text] at g
      have sameGap : p.gap = p'.gap := g.1.symm.trans g'.1
      have behind : p.written ++ rest = p'.written ++ rest' := g.2.symm.trans g'.2
      have sameWritten : p.written = p'.written := by
        rw [written.eq_extent ends, written'.eq_extent ends', behind, sameLexeme]
      rw [sameWritten, List.append_cancel_left_eq] at behind
      subst behind
      obtain ⟨rfl, rfl⟩ := ih more' sameRest
      obtain ⟨gap, lexeme, w⟩ := p
      obtain ⟨gap', lexeme', w'⟩ := p'
      cases sameGap
      cases sameLexeme
      cases sameWritten
      exact ⟨rfl, rfl⟩

end Unique

/-- A text that is read is spelled by its lexemes, and what is spelled is read. -/
theorem ofText_eq_ok_iff {d : Dialect} {text : String} {ls : List Lexeme} :
    ofText d text = .ok ls ↔
      ∃ ps last, Spelled d ps last text.toList ∧ ps.map Piece.lexeme = ls := by
  unfold ofText
  constructor
  · intro h
    split at h
    · cases h
    · obtain ⟨ps, last, spelled, rfl⟩ := spelled_of_cut h
      exact ⟨ps, last, spelled, rfl⟩
  · rintro ⟨ps, last, spelled, rfl⟩
    rw [foreign?_spelled spelled]
    exact cut_spelled spelled [] 0

/-- **A text is read exactly as it is spelled**: it is read as a list of lexemes if it consists of
them, written as the dialect has them, with gaps of spaces and tabs around them. A text is spelled in
one way at most: the gaps, the lexemes and how each is written are determined by it. -/
theorem reads_iff_spells (d : Dialect) (text : String) :
    (∀ ls, ofText d text = .ok ls ↔
      ∃ ps last, Spelled d ps last text.toList ∧ ps.map Piece.lexeme = ls) ∧
      ∀ ps ps' last last', Spelled d ps last text.toList → Spelled d ps' last' text.toList →
        ps = ps' ∧ last = last' := by
  refine ⟨fun ls => ofText_eq_ok_iff, fun ps ps' last last' h h' => ?_⟩
  have read := ofText_eq_ok_iff.mpr ⟨ps, last, h, rfl⟩
  have read' := ofText_eq_ok_iff.mpr ⟨ps', last', h', rfl⟩
  exact h.unique_of_lexemes h' (Except.ok.inj (read.symm.trans read'))

end Lexeme

end Reckoner
