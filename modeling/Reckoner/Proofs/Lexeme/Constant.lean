import Mathlib
import Reckoner.Proofs.Dialects

/-!
# Constants and literals

A number is written in two places, as the text of a constant and as a literal in an expression, and the
two rules differ. A constant may have a sign and may leave out the digits on one side of its point; any
white space may stand around it, and it has to be finite. A literal has digits on both sides of its
point, only spaces and tabs around it, and may be too large for a double.

What a constant may look like is said by `Constant`, with the value it stands for, and nothing is said
of how it is read. Reading has two stages: the text must pass for a constant, where digits of any script
pass, and must be the text of a value, which may also be a word or have an exponent. What passes is no
word and has no exponent (`Number.ofValue?_of_isPlain`), and a value has ASCII digits only. So **the
text of a constant, and no other, is read as a number, and this is the correct rounding of its value**
(`Number.ofConstant?_eq_some_iff`). A digit of another script is refused wherever it stands.

The two rules meet in a text whose only token is a number: it is a literal with separators around it
(`Number.tokens_eq_single_iff`), and a literal is a constant of the same value. So **such a
text is read as the same number by both, or, where the number is infinite, has a value by neither**
(`Number.constants_agree_with_literals`).
-/

namespace Reckoner

/-! ## 1. How a constant is written -/

/-- **A constant without its sign, and its value**: a literal, or a literal without the digits on one
side of the point. -/
inductive Unsigned : List Char → ℚ → Prop
  | literal {cs : List Char} {q : ℚ} (written : Literal cs q) : Unsigned cs q
  | pointBehind {ds : List Char} (nonempty : ds ≠ []) (digits : ∀ c ∈ ds, c.isDigit = true) :
      Unsigned (ds ++ ['.']) (Decimal.ofDigits ds)
  | pointBefore {fs : List Char} (nonempty : fs ≠ []) (digits : ∀ c ∈ fs, c.isDigit = true) :
      Unsigned ('.' :: fs) (Decimal.ofDigits fs / 10 ^ fs.length)

/-- **A constant, whether it is negative, and its value without the sign.** -/
inductive Constant : List Char → Bool → ℚ → Prop
  | bare {cs : List Char} {q : ℚ} (digits : Unsigned cs q) : Constant cs false q
  | plus {cs : List Char} {q : ℚ} (digits : Unsigned cs q) : Constant ('+' :: cs) false q
  | minus {cs : List Char} {q : ℚ} (digits : Unsigned cs q) : Constant ('-' :: cs) true q

/-- A constant without its sign consists of digits and points. -/
theorem Unsigned.isNumeric {cs : List Char} {q : ℚ} (h : Unsigned cs q) :
    ∀ c ∈ cs, Number.isNumeric c = true := by
  have digit : ∀ {c : Char}, c.isDigit = true → Number.isNumeric c = true := fun hc => by
    simp [Number.isNumeric, hc]
  cases h with
  | literal written => exact written.isNumeric.2
  | pointBehind _ digits =>
    exact List.forall_mem_append.mpr
      ⟨fun c hc => digit (digits c hc), List.forall_mem_singleton.mpr rfl⟩
  | pointBefore _ digits => exact List.forall_mem_cons.mpr ⟨rfl, fun c hc => digit (digits c hc)⟩

/-- A digit and a point are ASCII. -/
theorem Number.toNat_lt_of_isNumeric {c : Char} (h : isNumeric c = true) : c.toNat < 128 := by
  rcases Bool.or_eq_true_iff.mp h with digit | point
  · have part : Name.isPart c = true := by simp [Name.isPart, digit]
    have := Name.toNat_le_of_isPart part
    omega
  · rw [beq_iff_eq.mp point]
    decide

/-- A constant consists of ASCII characters. -/
theorem Constant.toNat_lt {cs : List Char} {negative : Bool} {q : ℚ} (h : Constant cs negative q) :
    ∀ c ∈ cs, c.toNat < 128 := by
  have inside : ∀ {ds : List Char}, Unsigned ds q → ∀ c ∈ ds, c.toNat < 128 :=
    fun digits c hc => Number.toNat_lt_of_isNumeric (digits.isNumeric c hc)
  cases h with
  | bare digits => exact inside digits
  | plus digits => exact List.forall_mem_cons.mpr ⟨by decide, inside digits⟩
  | minus digits => exact List.forall_mem_cons.mpr ⟨by decide, inside digits⟩

/-! ## 2. The sign -/

/-- From a text that starts with no sign none is taken. -/
theorem Decimal.takeSign_of_isNumeric {cs : List Char}
    (numeric : ∀ c ∈ cs, Number.isNumeric c = true) : takeSign cs = (false, cs) := by
  unfold takeSign
  split
  · exact absurd (numeric '-' List.mem_cons_self) (by decide)
  · exact absurd (numeric '+' List.mem_cons_self) (by decide)
  · rfl

/-- **A constant is a sign, or none, and the text behind it.** -/
theorem constant_iff {cs : List Char} {negative : Bool} {q : ℚ} :
    Constant cs negative q ↔ ∃ ds, Decimal.takeSign cs = (negative, ds) ∧ Unsigned ds q := by
  constructor
  · intro h
    cases h with
    | bare digits => exact ⟨cs, Decimal.takeSign_of_isNumeric digits.isNumeric, digits⟩
    | plus digits => exact ⟨_, rfl, digits⟩
    | minus digits => exact ⟨_, rfl, digits⟩
  · rintro ⟨ds, sign, digits⟩
    unfold Decimal.takeSign at sign
    split at sign
    · cases sign
      exact .minus digits
    · cases sign
      exact .plus digits
    · cases sign
      exact .bare digits

/-! ## 3. Reading a constant -/

namespace Number

/-- A literal is one of the texts of a constant, and stands for the same decimal. -/
theorem unsigned?_of_literal? {cs : List Char} {d : Decimal} (h : literal? cs = some d) :
    unsigned? cs = some d := by
  unfold literal? at h
  obtain ⟨⟨whole, fraction⟩, parts, h⟩ := Option.bind_eq_some_iff.mp h
  simp only [Option.ite_none_left_eq_some, Bool.or_eq_true, not_or, Bool.not_eq_true] at h
  obtain ⟨⟨nonempty, -⟩, decimal⟩ := h
  unfold unsigned?
  rw [parts]
  simp only [Option.bind_eq_bind, Option.bind_some, nonempty, Bool.false_and, Bool.false_eq_true,
    if_false, decimal]

/-- What is read as a constant without its sign is one. -/
theorem unsigned_of_unsigned? {cs : List Char} {d : Decimal} (h : unsigned? cs = some d) :
    Unsigned cs d.value := by
  unfold unsigned? at h
  obtain ⟨⟨ds, fraction⟩, parts, h⟩ := Option.bind_eq_some_iff.mp h
  obtain ⟨digits, hf⟩ := parts?_eq_some parts
  simp only [Option.ite_none_left_eq_some, Bool.and_eq_true, List.isEmpty_iff, not_and,
    Option.some.injEq] at h
  obtain ⟨nonempty, rfl⟩ := h
  rw [Decimal.value_ofParts]
  rcases hf with ⟨rfl, rfl⟩ | ⟨fs, rfl, digits', rfl⟩
  · have nonempty : cs ≠ [] := fun e => nonempty e rfl
    simpa [Decimal.ofDigits] using Unsigned.literal (.whole nonempty digits)
  · -- the point may have digits on both sides, or on one of them
    cases ds with
    | nil => simpa [Decimal.ofDigits] using Unsigned.pointBefore (nonempty rfl) digits'
    | cons c ds =>
      have whole := List.cons_ne_nil c ds
      cases fs with
      | nil => simpa [Decimal.ofDigits] using Unsigned.pointBehind whole digits
      | cons f fs => exact .literal (.fraction whole digits (List.cons_ne_nil f fs) digits')

end Number

/-- A constant without its sign is read as a decimal of its value. -/
theorem Unsigned.unsigned? {cs : List Char} {q : ℚ} (h : Unsigned cs q) :
    ∃ d, Number.unsigned? cs = some d ∧ d.value = q := by
  cases h with
  | literal written =>
    obtain ⟨d, read, value⟩ := written.literal?
    exact ⟨d, Number.unsigned?_of_literal? read, value⟩
  | @pointBehind ds nonempty digits =>
    have parts : Number.parts? (ds ++ ['.']) = some (ds, some []) :=
      Number.parts?_point digits (by simp)
    refine ⟨.ofParts ds [], by simp [Number.unsigned?, parts, nonempty], ?_⟩
    rw [Decimal.value_ofParts]
    simp [Decimal.ofDigits]
  | @pointBefore fs nonempty digits =>
    have parts : Number.parts? ([] ++ '.' :: fs) = some ([], some fs) :=
      Number.parts?_point (by simp) digits
    rw [List.nil_append] at parts
    refine ⟨.ofParts [] fs, by simp [Number.unsigned?, parts, nonempty], ?_⟩
    rw [Decimal.value_ofParts]
    simp [Decimal.ofDigits]

namespace Number

/-! ## 4. The form of a constant -/

/-- A text that passes for a constant consists of digits and points. -/
theorem digit_or_point_of_isPlain {cs : List Char} (form : isPlain cs = true) :
    ∀ c ∈ cs, Text.isDigit c = true ∨ c = '.' := by
  have digits : ∀ c ∈ cs.takeWhile Text.isDigit, Text.isDigit c = true :=
    fun c hc => List.mem_takeWhile_imp hc
  have whole := List.takeWhile_append_dropWhile (p := Text.isDigit) (l := cs)
  unfold isPlain at form
  dsimp only at form
  split at form
  · rename_i rest
    rw [rest, List.append_nil] at whole
    rw [whole] at digits
    exact fun c hc => .inl (digits c hc)
  · rename_i fraction rest
    rw [rest] at whole
    rw [Bool.and_eq_true, List.all_eq_true] at form
    rw [← whole]
    refine List.forall_mem_append.mpr ⟨fun c hc => .inl (digits c hc), ?_⟩
    exact List.forall_mem_cons.mpr ⟨.inr rfl, fun c hc => .inl (form.1 c hc)⟩
  · cases form

/-- A text that passes for a constant holds no capital letter. -/
theorem map_toLower_of_isPlain {cs : List Char} (form : isPlain cs = true) :
    cs.map Char.toLower = cs := by
  refine (List.map_congr_left fun c hc => Char.toLower_eq_of_not_isUpper ?_).trans (List.map_id cs)
  intro capital
  have range : 0x41 ≤ c.toNat ∧ c.toNat ≤ 0x5a := by
    simp only [Char.isUpper, decide_eq_true_eq] at capital
    exact capital
  rcases digit_or_point_of_isPlain form c hc with digit | rfl
  · rw [Text.isDigit_ascii (by omega)] at digit
    simp only [Char.isDigit, Bool.and_eq_true, decide_eq_true_eq] at digit
    have last : c.toNat ≤ 0x39 := digit.2
    omega
  · cases capital

/-- **What passes for a constant has a value only as digits and a point**: it is no word, and has no
exponent. -/
theorem ofValue?_of_isPlain {cs ds : List Char} {negative : Bool}
    (sign : Decimal.takeSign cs = (negative, ds)) (form : isPlain ds = true) :
    ofValue? cs = (unsigned? ds).map fun d => .ofPattern negative d.nearest := by
  have allowed := digit_or_point_of_isPlain form
  have lower := map_toLower_of_isPlain form
  have infinite : ¬ (ds = ['i', 'n', 'f'] ∨ ds = ['i', 'n', 'f', 'i', 'n', 'i', 't', 'y']) := by
    rintro (rfl | rfl) <;> exact absurd (allowed 'i' (by decide)) (by decide)
  have undefined : ds ≠ ['n', 'a', 'n'] := by
    rintro rfl
    exact absurd (allowed 'n' (by decide)) (by decide)
  have scaled : scaled? ds = unsigned? ds := by
    have whole := List.takeWhile_append_dropWhile (p := isNumeric) (l := ds)
    unfold scaled?
    cases rest : ds.dropWhile isNumeric with
    | nil =>
      rw [rest, List.append_nil] at whole
      rw [whole]
      cases unsigned? ds with
      | none => rfl
      | some d => simp [exponent?]
    | cons c behind =>
      -- the first character that is no part of a decimal cannot start an exponent either
      have mem : c ∈ ds := by
        rw [← whole, rest]
        exact List.mem_append_right _ List.mem_cons_self
      have other : isNumeric c = false := by
        have head := List.head?_dropWhile_not isNumeric ds
        rw [rest] at head
        simpa using head
      have unread : unsigned? ds = none := by
        refine Option.eq_none_iff_forall_ne_some.mpr fun d read => ?_
        cases other.symm.trans ((unsigned_of_unsigned? read).isNumeric c mem)
      have exponent : exponent? (c :: behind) = none := by
        have noMark : (c == 'e' || c == 'E') = false := by
          rw [Bool.or_eq_false_iff, beq_eq_false_iff_ne, beq_eq_false_iff_ne]
          constructor <;> rintro rfl <;> exact absurd (allowed _ mem) (by decide)
        simp [exponent?, noMark]
      rw [unread, exponent]
      cases unsigned? (ds.takeWhile isNumeric) <;> rfl
  unfold ofValue?
  simp only [sign, lower, if_neg infinite, if_neg undefined, scaled]

end Number

/-- A constant without its sign passes for one. -/
theorem Unsigned.isPlain {cs : List Char} {q : ℚ} (h : Unsigned cs q) : Number.isPlain cs = true := by
  have each : ∀ {ds : List Char}, (∀ c ∈ ds, c.isDigit = true) → ∀ c ∈ ds, Text.isDigit c = true :=
    fun digits c hc => Text.isDigit_of_isDigit (digits c hc)
  have pointed : ∀ {ds fs : List Char}, (∀ c ∈ ds, c.isDigit = true) → (∀ c ∈ fs, c.isDigit = true) →
      (ds ≠ [] ∨ fs ≠ []) → Number.isPlain (ds ++ '.' :: fs) = true := by
    intro ds fs digits digits' nonempty
    have run := takeWhile_run ('.' :: fs) (each digits) (by simp [Text.isDigit_point])
    unfold Number.isPlain
    rw [run.1, run.2]
    simp only [Bool.and_eq_true, List.all_eq_true, Bool.not_eq_true', Bool.and_eq_false_iff,
      List.isEmpty_eq_false_iff]
    exact ⟨each digits', nonempty⟩
  cases h with
  | literal written =>
    cases written with
    | whole nonempty digits =>
      have run := takeWhile_run [] (each digits) (by simp)
      rw [List.append_nil] at run
      unfold Number.isPlain
      rw [run.1, run.2]
      simpa using nonempty
    | fraction nonempty digits _ digits' => exact pointed digits digits' (.inl nonempty)
  | pointBehind nonempty digits => exact pointed digits (by simp) (.inl nonempty)
  | @pointBefore fs nonempty digits =>
    have form : Number.isPlain ([] ++ '.' :: fs) = true := pointed (by simp) digits (.inr nonempty)
    rwa [List.nil_append] at form

namespace Number

/-- **The two stages together**: a sign, digits on one side of an optional point, and a finite number. -/
theorem ofConstant?_eq {s : String} {negative : Bool} {ds : List Char}
    (sign : Decimal.takeSign (Text.trimmed s.toList) = (negative, ds)) :
    ofConstant? s =
      ((unsigned? ds).map fun d => .ofPattern negative d.nearest).filter Binary64.isFinite := by
  unfold ofConstant?
  simp only [sign]
  split
  · rename_i form
    rw [ofValue?_of_isPlain sign form]
  · rename_i form
    have unread : unsigned? ds = none := by
      refine Option.eq_none_iff_forall_ne_some.mpr fun d read => ?_
      exact form (unsigned_of_unsigned? read).isPlain
    rw [unread]
    rfl

/-- **What the text of a constant is read as**: the double its value is rounded to, unless this is
infinite. -/
theorem ofConstant?_of_constant {s : String} {negative : Bool} {q : ℚ} {pattern : Nat}
    (written : Constant (Text.trimmed s.toList) negative q)
    (rounded : Binary64.CorrectlyRounded q pattern) :
    ofConstant? s =
      if pattern < Binary64.infinity then some (.ofPattern negative pattern) else none := by
  obtain ⟨ds, sign, digits⟩ := constant_iff.mp written
  obtain ⟨d, read, rfl⟩ := digits.unsigned?
  have bound : pattern < Binary64.signBit := Nat.lt_of_le_of_lt rounded.le_infinity (by decide)
  rw [ofConstant?_eq sign, read, Option.map_some, Option.filter_some,
    ← rounded.unique d.correctlyRounded, Binary64.isFinite_ofPattern negative bound]
  simp only [decide_eq_true_eq]

/-- **The text of a constant is read as the finite double its value is rounded to**, with its sign, and
nothing else is read as a constant. -/
theorem ofConstant?_eq_some_iff {s : String} {x : Binary64} :
    ofConstant? s = some x ↔ ∃ q, Constant (Text.trimmed s.toList) x.isNegative q ∧
      Binary64.CorrectlyRounded q x.magnitude ∧ x.isFinite = true := by
  constructor
  · intro h
    rcases sign : Decimal.takeSign (Text.trimmed s.toList) with ⟨negative, ds⟩
    rw [ofConstant?_eq sign, Option.filter_eq_some_iff, Option.map_eq_some_iff] at h
    obtain ⟨⟨d, read, rfl⟩, finite⟩ := h
    have bound : d.nearest < Binary64.signBit :=
      Nat.lt_of_le_of_lt d.correctlyRounded.le_infinity (by decide)
    refine ⟨d.value, ?_, ?_, finite⟩
    · rw [Binary64.isNegative_ofPattern negative bound]
      exact constant_iff.mpr ⟨ds, sign, unsigned_of_unsigned? read⟩
    · rw [Binary64.magnitude_ofPattern negative bound]
      exact d.correctlyRounded
  · rintro ⟨q, written, rounded, finite⟩
    rw [ofConstant?_of_constant written rounded, if_pos (of_decide_eq_true finite),
      x.ofPattern_isNegative_magnitude]

/-- **A character that is neither ASCII nor white space is in no constant**; so no digit of another
script is. -/
theorem ofConstant?_eq_none_of_mem {s : String} {c : Char} (mem : c ∈ s.toList)
    (foreign : 128 ≤ c.toNat) (solid : Text.isBlank c = false) : ofConstant? s = none := by
  refine Option.eq_none_iff_forall_ne_some.mpr fun x read => ?_
  obtain ⟨q, written, -⟩ := ofConstant?_eq_some_iff.mp read
  obtain ⟨front, behind, whole, before, after⟩ := Text.exists_around s.toList
  -- white space is all that is taken off, so the character is still there
  rw [whole, List.append_assoc] at mem
  rcases List.mem_append.mp mem with outside | mem
  · cases solid.symm.trans (before c outside)
  · rcases List.mem_append.mp mem with inside | outside
    · have ascii := written.toNat_lt c inside
      omega
    · cases solid.symm.trans (after c outside)

end Number

/-! ## 5. A single number -/

/-- A text of one lexeme is this lexeme, as it is written, between two gaps. -/
theorem Lexeme.Spelled.of_single {d : Dialect} {ps : List Piece} {last cs : List Char} {l : Lexeme}
    (h : Spelled d ps last cs) (single : ps.map Piece.lexeme = [l]) :
    ∃ gap w, cs = gap ++ w ++ last ∧ Written d l w ∧ (∀ c ∈ gap, isSeparator c = true) ∧
      ∀ c ∈ last, isSeparator c = true := by
  cases h with
  | last => cases single
  | @piece p ps last rest blank written ends more =>
    obtain ⟨rfl, none⟩ := List.cons.inj single
    cases more with
    | last blank' => exact ⟨p.gap, p.written, by rw [List.append_assoc], written, blank, blank'⟩
    | piece => cases none

namespace Number

/-- **A text whose only token is a number is a literal of it** with separators around it. -/
theorem tokens_eq_single_iff {text : String} {x : Binary64} :
    Token.ofText text = .ok [.number x] ↔ ∃ gap w last, text.toList = gap ++ w ++ last ∧
      (∀ c ∈ gap, Lexeme.isSeparator c = true) ∧ (∀ c ∈ last, Lexeme.isSeparator c = true) ∧
        ofLiteral? w = some x := by
  constructor
  · intro h
    obtain ⟨ps, last, spelled, single⟩ :=
      Lexeme.ofText_eq_ok_iff.mp (Token.read_of_ofText h .numeric)
    obtain ⟨gap, w, whole, written, blank, blank'⟩ := spelled.of_single single
    refine ⟨gap, w, last, whole, blank, blank', ?_⟩
    cases written with
    | number literal rounded => exact ofLiteral?_eq_some_iff.mpr ⟨_, _, literal, rounded, rfl⟩
  · rintro ⟨gap, w, last, whole, blank, blank', read⟩
    obtain ⟨q, pattern, literal, rounded, rfl⟩ := ofLiteral?_eq_some_iff.mp read
    have spelled := Lexeme.Spelled.piece (d := .numeric)
      (p := ⟨gap, .token (.number (.ofPattern false pattern)), w⟩) blank (.number literal rounded)
      (Lexeme.ends_of_separator fun c hc => blank' c (List.mem_of_mem_head? hc)) (.last blank')
    rw [← List.append_assoc, ← whole] at spelled
    have lexed := Lexeme.ofText_eq_ok_iff.mpr ⟨_, _, spelled, rfl⟩
    unfold Token.ofText
    rw [lexed]
    rfl

/-- What separates lexemes is white space, and is taken off around a literal. -/
theorem trimmed_literal {gap w last : List Char} {q : ℚ} (literal : Literal w q)
    (blank : ∀ c ∈ gap, Lexeme.isSeparator c = true)
    (blank' : ∀ c ∈ last, Lexeme.isSeparator c = true) : Text.trimmed (gap ++ w ++ last) = w :=
  Text.trimmed_around (fun c hc => Lexeme.isBlank_of_isSeparator (blank c hc))
    (fun c hc => Lexeme.isBlank_of_isSeparator (blank' c hc))
    fun c hc => Name.isBlank_of_isNumeric (literal.isNumeric.2 c hc)

/-- A number by itself has its own value, if it is finite. -/
theorem evaluate_single (x : Binary64) :
    Token.evaluate [.number x] = if x.isFinite then .ok x else .error .nonFiniteResult :=
  rfl

/-- **Constants and literals agree where they meet.** A text is read as a constant exactly if, without
the white space around it, it is a constant as it is written, and then as the double that its value is
rounded to correctly, with its sign, which has to be finite; so a text with a digit of another script, or
with any other character that is neither ASCII nor white space, is refused. And a text whose only token
is a number is read as this number also as a constant and has it as its value, if the number is finite;
otherwise it is refused as a constant, and its value is refused for not being finite. -/
theorem constants_agree_with_literals :
    (∀ (s : String) (x : Binary64), ofConstant? s = some x ↔
      ∃ q, Constant (Text.trimmed s.toList) x.isNegative q ∧
        Binary64.CorrectlyRounded q x.magnitude ∧ x.isFinite = true) ∧
    (∀ s : String, ∀ c ∈ s.toList, 128 ≤ c.toNat → Text.isBlank c = false → ofConstant? s = none) ∧
    ∀ (text : String) (x : Binary64), Token.ofText text = .ok [.number x] →
      (x.isFinite = true → ofConstant? text = some x ∧ evaluateText text = .ok x) ∧
      (x.isFinite = false → ofConstant? text = none ∧
        evaluateText text = .error .nonFiniteResult) := by
  refine ⟨fun s x => ofConstant?_eq_some_iff, fun s c => ofConstant?_eq_none_of_mem,
    fun text x h => ?_⟩
  obtain ⟨gap, w, last, whole, blank, blank', read⟩ := tokens_eq_single_iff.mp h
  obtain ⟨q, pattern, literal, rounded, rfl⟩ := ofLiteral?_eq_some_iff.mp read
  have bound : pattern < Binary64.signBit := Nat.lt_of_le_of_lt rounded.le_infinity (by decide)
  have finite := Binary64.isFinite_ofPattern false bound
  have constant : ofConstant? text =
      if pattern < Binary64.infinity then some (.ofPattern false pattern) else none := by
    refine ofConstant?_of_constant (.bare (.literal ?_)) rounded
    rwa [whole, trimmed_literal literal blank blank']
  have value : evaluateText text = Token.evaluate [.number (.ofPattern false pattern)] := by
    unfold evaluateText
    rw [h]
    rfl
  rw [evaluate_single, finite] at value
  rw [finite]
  refine ⟨fun below => ?_, fun beyond => ?_⟩
  · rw [constant, value, below, if_pos (of_decide_eq_true below)]
    exact ⟨rfl, rfl⟩
  · rw [constant, value, beyond, if_neg (of_decide_eq_false beyond)]
    exact ⟨rfl, rfl⟩

/-- A literal that is too large for a double. -/
def nines : String :=
  String.ofList (List.replicate 309 '9')

/-- Two and a half between a tab and a space is the same number both ways, a number too large has a
value neither way, and a text with an Arabic digit is refused. -/
theorem padded_agrees :
    (Token.ofText "\t2.50 " = .ok [.number ⟨0x4004000000000000⟩] ∧
      ofConstant? "\t2.50 " = some ⟨0x4004000000000000⟩ ∧
        evaluateText "\t2.50 " = .ok ⟨0x4004000000000000⟩) ∧
    (Token.ofText nines = .ok [.number (.ofPattern false Binary64.infinity)] ∧
      ofConstant? nines = none ∧ evaluateText nines = .error .nonFiniteResult) ∧
    ofConstant? "1\u0663" = none := by
  have padded : Token.ofText "\t2.50 " = .ok [.number ⟨0x4004000000000000⟩] :=
    tokens_eq_single_iff.mpr
      ⟨['\t'], ['2', '.', '5', '0'], [' '], rfl, by simp [Lexeme.isSeparator],
        by simp [Lexeme.isSeparator], by decide +kernel⟩
  have whole : nines.toList = [] ++ List.replicate 309 '9' ++ [] := by
    rw [List.append_nil, List.nil_append]
    exact String.toList_ofList
  have large : Token.ofText nines = .ok [.number (.ofPattern false Binary64.infinity)] :=
    tokens_eq_single_iff.mpr ⟨[], _, [], whole, by simp, by simp, by decide +kernel⟩
  obtain ⟨-, refused, agree⟩ := constants_agree_with_literals
  exact ⟨⟨padded, (agree _ _ padded).1 (by decide)⟩, ⟨large, (agree _ _ large).2 (by decide)⟩,
    refused _ '\u0663' (by decide) (by decide) (by decide)⟩

end Number

end Reckoner
