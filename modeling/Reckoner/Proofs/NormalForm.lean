import Reckoner.Proofs.Binding
import Reckoner.Proofs.Lexeme.Spelling

/-!
# Normal forms

Texts are kept without the white space at their ends, and names in upper case besides. Whatever is
in its normal form already is kept as it is:

* `Text.Bare.trim_eq`: nothing is taken off a text whose ends are not white space; and such is every
  text that was trimmed (`Text.bare_trim`);
* `Name.normalize_of_isValid`: a name is its own normal form, so it is the name that its text gives
  (`Name.ofText_text`), and a text gives it exactly if it spells it, in any case and with any white
  space around it (`Name.ofText_eq_ok_iff_spelledBy`);
* `Lexeme.isValid_of_mem_references`: what an expression refers to is written as a name, so looking it
  up in any spelling is looking it up as it stands.
-/

namespace Reckoner

/-! ## 1. White space at the ends -/

namespace Text

/-- A text neither begins nor ends with white space. -/
def Bare (s : String) : Prop :=
  (∀ c ∈ s.toList.head?, isBlank c = false) ∧ ∀ c ∈ s.toList.getLast?, isBlank c = false

/-- What holds no white space has none at its ends. -/
theorem ends_of_solid {cs : List Char} (solid : ∀ c ∈ cs, isBlank c = false) :
    (∀ c ∈ cs.head?, isBlank c = false) ∧ ∀ c ∈ cs.getLast?, isBlank c = false :=
  ⟨fun c hc => solid c (List.mem_of_mem_head? hc), fun c hc => solid c (List.mem_of_getLast? hc)⟩

theorem dropWhile_of_head? {p : Char → Bool} {cs : List Char}
    (h : ∀ c ∈ cs.head?, p c = false) : cs.dropWhile p = cs := by
  cases cs with
  | nil => rfl
  | cons c cs => rw [List.dropWhile_cons, h c rfl, if_neg Bool.false_ne_true]

@[simp] theorem toList_trim (s : String) : (trim s).toList = trimmed s.toList :=
  String.toList_ofList

/-- **Nothing is taken off a text whose ends are not white space.** -/
theorem Bare.trimmed_eq {s : String} (h : Bare s) : trimmed s.toList = s.toList := by
  have last : ∀ c ∈ s.toList.reverse.head?, isBlank c = false := by
    rw [List.head?_reverse]
    exact h.2
  unfold trimmed
  rw [dropWhile_of_head? h.1, dropWhile_of_head? last, List.reverse_reverse]

theorem Bare.trim_eq {s : String} (h : Bare s) : trim s = s := by
  rw [trim, h.trimmed_eq, String.ofList_toList]

/-- **A text that was trimmed has no white space at its ends.** -/
theorem bare_trim (s : String) : Bare (trim s) := by
  unfold Bare
  rw [toList_trim]
  unfold trimmed
  generalize front : s.toList.dropWhile isBlank = cs
  refine ⟨fun c hc => ?_, fun c hc => ?_⟩
  · -- what is left at the front is what was there, as long as anything is left
    have kept : (cs.reverse.dropWhile isBlank).reverse <+: cs := by
      have suffix := List.dropWhile_suffix isBlank (l := cs.reverse)
      rw [← List.reverse_prefix] at suffix
      rwa [List.reverse_reverse] at suffix
    obtain ⟨behind, whole⟩ := kept
    have first : c ∈ (s.toList.dropWhile isBlank).head? := by
      rw [front, ← whole, List.head?_append, hc]
      rfl
    exact outside_dropWhile first
  · rw [List.getLast?_reverse] at hc
    exact outside_dropWhile hc

@[simp] theorem trim_trim (s : String) : trim (trim s) = trim s :=
  (bare_trim s).trim_eq

@[simp] theorem trimmed_trimmed (cs : List Char) : trimmed (trimmed cs) = trimmed cs := by
  have h := (bare_trim (String.ofList cs)).trimmed_eq
  rwa [toList_trim, String.toList_ofList] at h

/-- The code points of white space. -/
def blankCodes : List Nat :=
  [0x09, 0x0a, 0x0b, 0x0c, 0x0d, 0x20, 0x85, 0xa0, 0x1680, 0x2000, 0x2001, 0x2002, 0x2003, 0x2004,
    0x2005, 0x2006, 0x2007, 0x2008, 0x2009, 0x200a, 0x2028, 0x2029, 0x202f, 0x205f, 0x3000]

theorem toNat_mem_blankCodes {c : Char} (h : isBlank c = true) : c.toNat ∈ blankCodes := by
  simp only [isBlank, Bool.or_eq_true, Bool.and_eq_true, decide_eq_true_eq, beq_iff_eq] at h
  simp only [blankCodes, List.mem_cons, List.not_mem_nil, or_false]
  omega

/-- White space has no other case. -/
theorem upperCase_of_isBlank {c : Char} (h : isBlank c = true) : UpperCase.ofChar c = [c] := by
  have each : ∀ n ∈ blankCodes, UpperCase.ofChar (Char.ofNat n) = [Char.ofNat n] := by decide +kernel
  have := each c.toNat (toNat_mem_blankCodes h)
  rwa [Char.ofNat_toNat] at this

/-- A text is what is left of it between the white space at its ends. -/
theorem exists_around (cs : List Char) : ∃ front behind, cs = front ++ trimmed cs ++ behind ∧
    (∀ c ∈ front, isBlank c = true) ∧ ∀ c ∈ behind, isBlank c = true := by
  have first := List.takeWhile_append_dropWhile (p := isBlank) (l := cs)
  have last := List.takeWhile_append_dropWhile (p := isBlank) (l := (cs.dropWhile isBlank).reverse)
  refine ⟨cs.takeWhile isBlank, ((cs.dropWhile isBlank).reverse.takeWhile isBlank).reverse, ?_,
    fun c hc => List.mem_takeWhile_imp hc,
    fun c hc => List.mem_takeWhile_imp (List.mem_reverse.mp hc)⟩
  have inner : trimmed cs ++ ((cs.dropWhile isBlank).reverse.takeWhile isBlank).reverse =
      cs.dropWhile isBlank := by
    rw [trimmed, ← List.reverse_append, last, List.reverse_reverse]
  rw [List.append_assoc, inner, first]

/-- White space around a text without any is taken off. -/
theorem trimmed_around {front core behind : List Char} (before : ∀ c ∈ front, isBlank c = true)
    (after : ∀ c ∈ behind, isBlank c = true) (solid : ∀ c ∈ core, isBlank c = false) :
    trimmed (front ++ core ++ behind) = core := by
  have head : ∀ c ∈ core.head?, isBlank c = false := fun c hc => solid c (List.mem_of_mem_head? hc)
  have last : ∀ c ∈ core.reverse.head?, isBlank c = false :=
    fun c hc => solid c (List.mem_reverse.mp (List.mem_of_mem_head? hc))
  have after' : ∀ c ∈ behind.reverse, isBlank c = true := fun c hc => after c (List.mem_reverse.mp hc)
  unfold trimmed
  rw [List.append_assoc, List.dropWhile_append_of_pos before]
  cases core with
  | nil =>
    rw [List.nil_append, List.dropWhile_eq_nil_iff.mpr after]
    rfl
  | cons c cs =>
    rw [List.cons_append, List.dropWhile_cons, head c rfl, if_neg Bool.false_ne_true,
      ← List.cons_append, List.reverse_append, List.dropWhile_append_of_pos after',
      dropWhile_of_head? last, List.reverse_reverse]

end Text

/-- What separates lexemes is white space. -/
theorem Lexeme.isBlank_of_isSeparator {c : Char} (h : isSeparator c = true) :
    Text.isBlank c = true := by
  rcases isSeparator_iff.mp h with rfl | rfl
  · rfl
  · rfl

/-- White space at the ends of a constant means nothing. -/
@[simp] theorem Number.ofConstant?_trim (s : String) : ofConstant? (Text.trim s) = ofConstant? s := by
  unfold ofConstant?
  rw [Text.toList_trim, Text.trimmed_trimmed]

/-! ## 2. Names -/

namespace Name

/-- A name is no more than its text. -/
@[ext] theorem ext {name other : Name} (same : name.text = other.text) : name = other := by
  cases name
  cases other
  cases same
  rfl

theorem isNamePart_of_isPart {c : Char} (h : isPart c = true) :
    Placeholder.isNamePart c = true := by
  simp only [isPart, Bool.or_eq_true] at h
  rcases h with (upper | digit) | underscore
  · simp [Placeholder.isNamePart, Char.isAlphanum, Char.isAlpha, upper]
  · simp [Placeholder.isNamePart, Char.isAlphanum, digit]
  · simp [Placeholder.isNamePart, underscore]

/-- A character of a name is no white space. -/
theorem isBlank_of_isPart {c : Char} (h : isPart c = true) : Text.isBlank c = false := by
  by_cases blank : Text.isBlank c = true
  · cases (Lexeme.isNamePart_eq_false blank).symm.trans (isNamePart_of_isPart h)
  · simpa using blank

/-- A digit and a point are no white space. -/
theorem isBlank_of_isNumeric {c : Char} (h : Number.isNumeric c = true) : Text.isBlank c = false := by
  rcases Bool.or_eq_true_iff.mp h with digit | point
  · exact isBlank_of_isPart (by simp [isPart, digit])
  · rw [beq_iff_eq.mp point]
    rfl

/-- The characters of names stand before the small letters. -/
theorem toNat_le_of_isPart {c : Char} (h : isPart c = true) : c.toNat ≤ 95 := by
  simp only [isPart, Char.isUpper, Char.isDigit, Bool.or_eq_true, Bool.and_eq_true,
    decide_eq_true_eq, beq_iff_eq, UInt32.le_iff_toNat_le] at h
  rcases h with (⟨-, upper⟩ | ⟨-, digit⟩) | rfl
  · exact Nat.le_trans upper (by decide)
  · exact Nat.le_trans digit (by decide)
  · decide

/-- A character of a name is its own upper case. -/
theorem upperCase_of_isPart {c : Char} (h : isPart c = true) : Text.UpperCase.ofChar c = [c] := by
  have range := toNat_le_of_isPart h
  have small : c.toUpper = c := by
    unfold Char.toUpper
    rw [dif_neg]
    rintro ⟨low, -⟩
    have : 97 ≤ c.toNat := UInt32.le_iff_toNat_le.mp low
    omega
  rw [Text.UpperCase.ofChar_ascii (by omega), small]

theorem isPart_of_isValid {s : String} (h : isValid s = true) :
    ∀ c ∈ s.toList, isPart c = true := by
  simp only [isValid, Bool.and_eq_true, List.all_eq_true] at h
  exact h.2

theorem bare_of_isValid {s : String} (h : isValid s = true) : Text.Bare s :=
  Text.ends_of_solid fun c hc => isBlank_of_isPart (isPart_of_isValid h c hc)

/-- **A name is its own normal form.** -/
theorem normalize_of_isValid {s : String} (h : isValid s = true) : normalize s = s := by
  have upper : s.toList.flatMap Text.UpperCase.ofChar = s.toList := by
    calc s.toList.flatMap Text.UpperCase.ofChar
      _ = s.toList.flatMap fun c => [c] :=
        List.flatMap_congr fun c hc => upperCase_of_isPart (isPart_of_isValid h c hc)
      _ = s.toList := List.flatMap_singleton' _
  rw [normalize, (bare_of_isValid h).trim_eq, Text.upperCase, upper, String.ofList_toList]

@[simp] theorem normalize_text (name : Name) : normalize name.text = name.text :=
  normalize_of_isValid name.valid

/-- **A name is what its own text gives.** -/
theorem ofText_text (name : Name) : ofText name.text = .ok name := by
  have same := normalize_text name
  have valid : isValid (normalize name.text) = true := same.symm ▸ name.valid
  unfold ofText
  rw [dif_pos valid]
  cases name
  exact congrArg Except.ok (by simpa using same)

variable {raw : String} {name : Name}

/-- A text gives a name exactly if the name is its normal form. -/
theorem ofText_eq_ok_iff : ofText raw = .ok name ↔ name.text = normalize raw := by
  unfold ofText
  split
  · rename_i valid
    exact ⟨fun h => Except.ok.inj h ▸ rfl, fun h => congrArg Except.ok (Name.ext h.symm)⟩
  · rename_i invalid
    exact ⟨(nomatch ·), fun h => absurd (h ▸ name.valid) invalid⟩

/-- **How a name may be given**: with white space around it, and each character in any case. -/
def SpelledBy (name : Name) (raw : String) : Prop :=
  ∃ front core behind, raw.toList = front ++ core ++ behind ∧
    (∀ c ∈ front, Text.isBlank c = true) ∧ (∀ c ∈ behind, Text.isBlank c = true) ∧
      core.flatMap Text.UpperCase.ofChar = name.text.toList

/-- **A text gives a name exactly if it spells it**: neither case nor white space around it matters. -/
theorem ofText_eq_ok_iff_spelledBy : ofText raw = .ok name ↔ name.SpelledBy raw := by
  rw [ofText_eq_ok_iff]
  constructor
  · intro same
    obtain ⟨front, behind, whole, before, after⟩ := Text.exists_around raw.toList
    refine ⟨front, Text.trimmed raw.toList, behind, whole, before, after, ?_⟩
    rw [same, normalize, Text.upperCase, String.toList_ofList, Text.toList_trim]
  · rintro ⟨front, core, behind, whole, before, after, upper⟩
    have solid : ∀ c ∈ core, Text.isBlank c = false := by
      intro c hc
      by_contra blank
      rw [Bool.not_eq_false] at blank
      have part : c ∈ name.text.toList := by
        rw [← upper]
        refine List.mem_flatMap.mpr ⟨c, hc, ?_⟩
        rw [Text.upperCase_of_isBlank blank]
        exact List.mem_singleton_self c
      cases blank.symm.trans (isBlank_of_isPart (isPart_of_isValid name.valid c part))
    rw [normalize, Text.upperCase, Text.toList_trim, whole, Text.trimmed_around before after solid,
      upper, String.ofList_toList]

end Name

/-! ## 3. References -/

namespace Lexeme

theorem Written.isValid {d : Dialect} {name : String} {w : List Char}
    (h : Written d (symbol (.reference name)) w) : Name.isValid name = true := by
  cases h with
  | @reference c cs allowed start parts =>
    simp only [Name.isValid, String.toList_ofList, List.head?_cons, Option.any_some, start,
      Bool.true_and, List.all_eq_true]
    exact List.forall_mem_cons.mpr ⟨Name.isPart_of_isStart start, parts⟩

theorem Spelled.written_of_mem {d : Dialect} {ps : List Piece} {last cs : List Char}
    (h : Spelled d ps last cs) : ∀ p ∈ ps, Written d p.lexeme p.written := by
  induction h with
  | last => exact fun p hp => absurd hp List.not_mem_nil
  | piece _ written _ _ ih => exact List.forall_mem_cons.mpr ⟨written, ih⟩

/-- **What an expression refers to is written as a name.** -/
theorem isValid_of_mem_references {d : Dialect} {text : String} {ls : List Lexeme}
    (read : ofText d text = .ok ls) {name : String} (h : name ∈ references ls) :
    Name.isValid name = true := by
  obtain ⟨ps, last, spelled, rfl⟩ := ofText_eq_ok_iff.mp read
  obtain ⟨p, hp, isReference⟩ := List.mem_map.mp (mem_references.mp h)
  have written := spelled.written_of_mem p hp
  rw [isReference] at written
  exact written.isValid

end Lexeme

end Reckoner
