import Reckoner.Json.Token

/-!
# Strings are read as they are written

A text has many spellings as a JSON string: a character may stand for itself, be escaped by a letter
or be given by its code units, one or a surrogate pair. `Spelled` says so without a reader. **Every
spelling of a text is read as that text** (`ofQuoted_spelled`), and what `encode` writes is one of
them (`spelled_encode`).
-/

namespace Reckoner.Json.Text

/-! ## 1. Spellings -/

/-- **How a text is written between the quotes.** The spelling comes first, the text second. -/
inductive Spelled : List Char → List Char → Prop
  | nil : Spelled [] []
  | plain {c : Char} {body cs : List Char} (printable : 0x20 ≤ c.toNat) (quote : c ≠ '"')
      (backslash : c ≠ '\\') (rest : Spelled body cs) : Spelled (c :: body) (c :: cs)
  | escape {letter c : Char} {body cs : List Char} (known : escaped? letter = some c)
      (rest : Spelled body cs) : Spelled ('\\' :: letter :: body) (c :: cs)
  | unit {a b c d : Char} {n : Nat} {body cs : List Char} (digits : unit? a b c d = some n)
      (leading : isLeading n = false) (trailing : isTrailing n = false) (rest : Spelled body cs) :
      Spelled ('\\' :: 'u' :: a :: b :: c :: d :: body) (Char.ofNat n :: cs)
  | pair {a b c d a' b' c' d' : Char} {n m : Nat} {body cs : List Char}
      (digits : unit? a b c d = some n) (digits' : unit? a' b' c' d' = some m)
      (leading : isLeading n = true) (trailing : isTrailing m = true) (rest : Spelled body cs) :
      Spelled ('\\' :: 'u' :: a :: b :: c :: d :: '\\' :: 'u' :: a' :: b' :: c' :: d' :: body)
        (Text.pair n m :: cs)

/-! ## 2. Reading -/

section

variable {done : List Piece} {c : Char} {cs : List Char}

theorem scan_plain (printable : 0x20 ≤ c.toNat) (quote : c ≠ '"') (backslash : c ≠ '\\') :
    scan done (c :: cs) = scan (.char c :: done) cs := by
  rw [scan]
  · exact if_neg (by omega)
  all_goals grind

theorem scan_escape {letter : Char} (known : escaped? letter = some c) :
    scan done ('\\' :: letter :: cs) = scan (.char c :: done) cs := by
  unfold escaped? at known
  split at known <;> cases known <;> rfl

theorem scan_unit {a b d e : Char} {n : Nat} (digits : unit? a b d e = some n) :
    scan done ('\\' :: 'u' :: a :: b :: d :: e :: cs) = scan (.unit n :: done) cs := by
  rw [scan, digits]

end

/-- A leading surrogate is not a trailing one. -/
theorem isTrailing_of_isLeading {n : Nat} (h : isLeading n = true) : isTrailing n = false := by
  simp only [isLeading, isTrailing, Bool.and_eq_true, decide_eq_true_eq, Bool.and_eq_false_iff,
    decide_eq_false_iff_not] at *
  omega

section

variable {ending : Option Problem} {done : List Char} {n m : Nat} {ps : List Piece}

theorem decode_unit (leading : isLeading n = false) (trailing : isTrailing n = false) :
    decode ending done (.unit n :: ps) = decode ending (Char.ofNat n :: done) ps := by
  rw [decode.eq_def]
  simp only [leading, trailing, Bool.false_eq_true, if_false]

theorem decode_pair (leading : isLeading n = true) (trailing : isTrailing m = true) :
    decode ending done (.unit n :: .unit m :: ps) = decode ending (pair n m :: done) ps := by
  rw [decode.eq_def]
  simp only [isTrailing_of_isLeading leading, leading, trailing, Bool.false_eq_true, if_false, if_true]

end

/-- **A spelling is cut into pieces that stand for the text.** The cut is said with what stands behind
the closing quote, the joining without it: the two steps do not see each other's input. -/
theorem Spelled.pieces {body cs : List Char} (h : Spelled body cs) :
    ∃ ps : List Piece,
      (∀ done rest, scan done (body ++ '"' :: rest) = (done.reverse ++ ps, .ok rest)) ∧
      ∀ done, decode none done ps = .ok (done.reverse ++ cs) := by
  induction h with
  | nil => exact ⟨[], fun done rest => by simp [scan], fun done => by simp [decode]⟩
  | @plain c body cs printable quote backslash _ ih =>
    obtain ⟨ps, cut, joined⟩ := ih
    refine ⟨.char c :: ps, fun done rest => ?_, fun done => ?_⟩
    · rw [List.cons_append, scan_plain printable quote backslash, cut]
      simp
    · rw [decode, joined]
      simp
  | @escape letter c body cs known _ ih =>
    obtain ⟨ps, cut, joined⟩ := ih
    refine ⟨.char c :: ps, fun done rest => ?_, fun done => ?_⟩
    · rw [List.cons_append, List.cons_append, scan_escape known, cut]
      simp
    · rw [decode, joined]
      simp
  | @unit a b c d n body cs digits leading trailing _ ih =>
    obtain ⟨ps, cut, joined⟩ := ih
    refine ⟨.unit n :: ps, fun done rest => ?_, fun done => ?_⟩
    · simp only [List.cons_append]
      rw [scan_unit digits, cut]
      simp
    · rw [decode_unit leading trailing, joined]
      simp
  | @pair a b c d a' b' c' d' n m body cs digits digits' leading trailing _ ih =>
    obtain ⟨ps, cut, joined⟩ := ih
    refine ⟨.unit n :: .unit m :: ps, fun done rest => ?_, fun done => ?_⟩
    · simp only [List.cons_append]
      rw [scan_unit digits, scan_unit digits', cut]
      simp
    · rw [decode_pair leading trailing, joined]
      simp

/-- **Every spelling of a text is read as that text.** -/
theorem ofQuoted_spelled {body cs : List Char} (h : Spelled body cs) (rest : List Char) :
    Token.ofQuoted (body ++ '"' :: rest) = (.text (.ok (String.ofList cs)), rest) := by
  obtain ⟨ps, cut, joined⟩ := h.pieces
  unfold Token.ofQuoted
  rw [cut]
  simp only [List.reverse_nil, List.nil_append, content, joined]
  rfl

/-! ## 3. Writing -/

/-- A control character is given by the two digits of its number. -/
theorem unit?_control : ∀ n < 0x20,
    unit? '0' '0' (Nat.digitChar (n / 16)) (Nat.digitChar (n % 16)) = some n := by
  decide

theorem spelled_encodeChar (c : Char) {body cs : List Char} (rest : Spelled body cs) :
    Spelled (encodeChar c ++ body) (c :: cs) := by
  unfold encodeChar
  split
  · exact .escape rfl rest
  · exact .escape rfl rest
  · exact .escape rfl rest
  · exact .escape rfl rest
  · exact .escape rfl rest
  · exact .escape rfl rest
  · exact .escape rfl rest
  · rename_i quote backslash _ _ _ _ _
    split
    · rename_i control
      have digits := unit?_control c.toNat control
      have spelled := Spelled.unit digits (by simp [isLeading]; omega) (by simp [isTrailing]; omega) rest
      rwa [Char.ofNat_toNat] at spelled
    · rename_i printable
      exact .plain (Nat.le_of_not_lt printable) quote backslash rest

/-- **What is written is a spelling.** -/
theorem spelled_encode (cs : List Char) : Spelled (cs.flatMap encodeChar) cs := by
  induction cs with
  | nil => exact .nil
  | cons c cs ih => exact spelled_encodeChar c ih

end Reckoner.Json.Text
