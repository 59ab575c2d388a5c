import Reckoner.Proofs.Lexeme.Location

/-!
# Reading along the placeholders

Placeholders can be looked for once, before an expression is read, and both passes can then go along
their list with a cursor. The first pass asks for each character whether its byte lies in the span that
comes next, and the second one jumps to the end of a span where it meets its start. Neither looks at
what stands between the braces.

`Lexeme.ofText` keeps no such list: it looks for a placeholder afresh wherever one could start. **The
two read every text alike** (`Lexeme.ofTextAlong_eq`), in every dialect and also where reading fails.
They do because a cursor is never left behind: outside placeholders, the spans still to come are
those of the text still to come.
-/

namespace Reckoner

namespace Text

/-! ## 1. Places in bytes -/

/-- What is left of a text behind a number of bytes. -/
def dropBytes : Nat → List Char → List Char
  | 0, cs => cs
  | _ + 1, [] => []
  | n + 1, c :: cs => dropBytes (n + 1 - c.utf8Size) cs

theorem dropBytes_length_le (n : Nat) (cs : List Char) : (dropBytes n cs).length ≤ cs.length := by
  fun_induction dropBytes n cs with
  | case1 => exact Nat.le_refl _
  | case2 => exact Nat.le_refl _
  | case3 n c cs ih => exact Nat.le_succ_of_le ih

/-- Behind the bytes of a beginning stands the rest. -/
theorem dropBytes_append (w rest : List Char) : dropBytes (byteCount w) (w ++ rest) = rest := by
  induction w with
  | nil => rw [List.nil_append, byteCount, dropBytes]
  | cons c w ih =>
    obtain ⟨n, bytes⟩ := Nat.exists_eq_succ_of_ne_zero
      (show byteCount (c :: w) ≠ 0 from Nat.ne_of_gt (Nat.add_pos_left c.utf8Size_pos _))
    have behind : n + 1 - c.utf8Size = byteCount w := by
      rw [← Nat.succ_eq_add_one, ← bytes, byteCount, Nat.add_sub_cancel_left]
    rw [bytes, List.cons_append, dropBytes, behind, ih]

end Text

namespace Lexeme

open Placeholder (Span)

/-! ## 2. The passes with a cursor -/

/-- The leftmost character that the dialect does not allow and that lies in none of the spans. Those
that end before it are passed. -/
def foreignAlong? (d : Dialect) (spans : List Span) (offset position : Nat) :
    List Char → Option (Char × Nat)
  | [] => none
  | c :: cs =>
    let ahead := spans.dropWhile fun s => s.stop ≤ offset
    if ahead.head?.any fun s => s.start ≤ offset && offset < s.stop then
      foreignAlong? d ahead (offset + c.utf8Size) (position + 1) cs
    else if isAllowed d c then
      foreignAlong? d ahead (offset + c.utf8Size) (position + 1) cs
    else
      some (c, position)

/-- The span that comes next and those behind it, if it starts at a byte offset. -/
def take? (offset : Nat) : List Span → Option (Span × List Span)
  | s :: spans => if s.start = offset then some (s, spans) else none
  | [] => none

/-- The lexemes of a text that starts at a byte offset and a position, behind the lexemes `done` (the
last one first), when `spans` are the placeholders that are still to come. -/
def cutAlong (d : Dialect) (spans : List Span) (done : List Lexeme) (offset position : Nat) :
    List Char → Except Fault (List Lexeme)
  | [] => .ok done.reverse
  | c :: cs =>
    if isSeparator c then
      cutAlong d spans done (offset + c.utf8Size) (position + 1) cs
    else
      match take? offset spans with
      | some (s, ahead) =>
        let rest := Text.dropBytes (s.stop - offset - c.utf8Size) cs
        cutAlong d ahead (symbol (.placeholder s.name) :: done) s.stop
          (position + ((c :: cs).length - rest.length)) rest
      | none =>
        match Token.ofChar? c with
        | some t => cutAlong d spans (token t :: done) (offset + c.utf8Size) (position + 1) cs
        | none =>
          if Number.isNumeric c then
            let run := c :: cs.takeWhile Number.isNumeric
            let rest := cs.dropWhile Number.isNumeric
            match Number.ofLiteral? run with
            | none => .error (.malformed (.invalidNumber (String.ofList run)))
            | some x =>
              match rest.head?.filter Placeholder.isNameStart with
              | some follower => .error (.invalidCharacter follower (position + run.length))
              | none =>
                cutAlong d spans (token (.number x) :: done) (offset + Text.byteCount run)
                  (position + run.length) rest
          else if d.references && Name.isStart c then
            let name := c :: cs.takeWhile Name.isPart
            cutAlong d spans (symbol (.reference (String.ofList name)) :: done)
              (offset + Text.byteCount name) (position + name.length) (cs.dropWhile Name.isPart)
          else
            .error (.invalidCharacter c position)
termination_by cs => cs.length
decreasing_by
  · simp
  · exact Nat.lt_succ_of_le (Text.dropBytes_length_le _ _)
  · simp
  · exact Nat.lt_succ_of_le (List.dropWhile_suffix _).length_le
  · exact Nat.lt_succ_of_le (List.dropWhile_suffix _).length_le

/-- The lexemes of an expression, read along its placeholders. -/
def ofTextAlong (d : Dialect) (s : String) : Except Fault (List Lexeme) :=
  let spans := if d.placeholders then Placeholder.spans s else []
  match foreignAlong? d spans 0 0 s.toList with
  | some (c, position) => .error (.invalidCharacter c position)
  | none => cutAlong d spans [] 0 0 s.toList

/-! ## 3. The cursor of the first pass -/

section First

variable {d : Dialect} {s : Span} {spans : List Span} {offset : Nat} {cs : List Char}

/-- A span that ends before a text is passed. -/
theorem foreignAlong?_passed (passed : s.stop ≤ offset) (position : Nat) :
    foreignAlong? d (s :: spans) offset position cs = foreignAlong? d spans offset position cs := by
  cases cs with
  | nil => rfl
  | cons c cs =>
    simp only [foreignAlong?, List.dropWhile_cons_of_pos (l := spans)
      (p := fun s : Span => decide (s.stop ≤ offset)) (decide_eq_true passed)]

/-- In a span nothing is checked. -/
theorem foreignAlong?_inside {w : List Char} (start : s.start ≤ offset)
    (stop : offset + Text.byteCount w ≤ s.stop) (position : Nat) :
    foreignAlong? d (s :: spans) offset position (w ++ cs) =
      foreignAlong? d (s :: spans) (offset + Text.byteCount w) (position + w.length) cs := by
  induction w generalizing offset position with
  | nil => rfl
  | cons c w ih =>
    rw [Text.byteCount] at stop
    have := c.utf8Size_pos
    have here : (decide (s.start ≤ offset) && decide (offset < s.stop)) = true := by
      simp only [Bool.and_eq_true, decide_eq_true_eq]
      omega
    have ahead : (s :: spans).dropWhile (fun s => decide (s.stop ≤ offset)) = s :: spans :=
      List.dropWhile_cons_of_neg (by simp only [decide_eq_true_eq]; omega)
    rw [List.cons_append, foreignAlong?]
    simp only [ahead, List.head?_cons, Option.any_some, here, if_true]
    rw [ih (by omega) (by omega), Text.byteCount, List.length_cons, Nat.add_assoc, Nat.add_assoc,
      Nat.add_comm 1]

/-- Where all spans start further behind, the alphabet decides. -/
theorem foreignAlong?_plain {c : Char} (behind : ∀ s ∈ spans, offset < s.start ∧ s.start < s.stop)
    (position : Nat) :
    foreignAlong? d spans offset position (c :: cs) =
      if isAllowed d c then foreignAlong? d spans (offset + c.utf8Size) (position + 1) cs
      else some (c, position) := by
  cases spans with
  | nil => rfl
  | cons s spans =>
    obtain ⟨start, stop⟩ := behind s List.mem_cons_self
    have ahead : (s :: spans).dropWhile (fun s => decide (s.stop ≤ offset)) = s :: spans :=
      List.dropWhile_cons_of_neg (by simp only [decide_eq_true_eq]; omega)
    have outside : (decide (s.start ≤ offset) && decide (offset < s.stop)) = false := by
      simp only [Bool.and_eq_false_iff, decide_eq_false_iff_not]
      omega
    rw [foreignAlong?]
    simp only [ahead, List.head?_cons, Option.any_some, outside, Bool.false_eq_true, if_false]

/-- Placeholders start where the text does or behind, and none is empty. -/
theorem bounds_of_mem_spansFrom (h : s ∈ spansFrom d offset cs) :
    offset ≤ s.start ∧ s.start < s.stop := by
  refine ⟨le_start_of_mem_spansFrom h, ?_⟩
  unfold spansFrom at h
  split at h
  · exact (Placeholder.mem_spansFrom_iff.mp h).start_lt
  · cases h

/-- Where no placeholder starts, all of them start behind the first character. -/
theorem behind_of_missing {c : Char} (missing : placeholder? d (c :: cs) = none) :
    ∀ s ∈ spansFrom d offset (c :: cs), offset < s.start ∧ s.start < s.stop := by
  intro s hs
  rw [spansFrom_missing missing] at hs
  obtain ⟨start, stop⟩ := bounds_of_mem_spansFrom hs
  have := c.utf8Size_pos
  exact ⟨by omega, stop⟩

/-- **The first pass along the placeholders finds what the one without a list finds.** -/
theorem foreignAlong?_eq (offset position : Nat) (cs : List Char) :
    foreignAlong? d (spansFrom d offset cs) offset position cs = foreign? d position cs := by
  fun_induction foreign? d position cs generalizing offset with
  | case1 => rw [foreignAlong?]
  | case2 position c cs r read ih =>
    rw [spansFrom_found read, ← append_of_placeholder? read,
      foreignAlong?_inside (Nat.le_refl _) (Nat.le_refl _), foreignAlong?_passed (Nat.le_refl _), ih]
  | case3 position c cs missing allowed ih =>
    rw [foreignAlong?_plain (behind_of_missing missing), if_pos allowed, spansFrom_missing missing,
      ih]
  | case4 position c cs missing foreign =>
    rw [foreignAlong?_plain (behind_of_missing missing), if_neg foreign]

end First

/-! ## 4. The cursor of the second pass -/

section Second

variable {d : Dialect} {spans : List Span} {done : List Lexeme} {offset position : Nat} {c : Char}
  {cs : List Char}

/-- A run of characters of a kind that has no braces is passed over. -/
theorem spansFrom_run {p : Char → Bool}
    (outside : [' ', '\t', '{', '+', '-', '*', '/', '(', ')'].any p = false) (starts : p c = true) :
    spansFrom d offset (c :: cs) =
      spansFrom d (offset + Text.byteCount (c :: cs.takeWhile p)) (cs.dropWhile p) := by
  unfold spansFrom
  cases d.placeholders with
  | true => exact placeholdersFrom_run outside starts offset cs
  | false => rfl

/-- Where no placeholder starts, none is taken. -/
theorem untaken (missing : placeholder? d (c :: cs) = none) :
    take? offset (spansFrom d offset (c :: cs)) = none := by
  cases spans : spansFrom d offset (c :: cs) with
  | nil => rfl
  | cons s ahead =>
    have behind := (behind_of_missing missing s (spans ▸ List.mem_cons_self)).1
    exact if_neg (Nat.ne_of_gt behind)

/-- **A span that starts here is taken as a whole**: behind its end stands what follows the placeholder. -/
theorem cutAlong_taken {r : Placeholder.Reading} (separates : ¬ isSeparator c = true)
    (read : placeholder? d (c :: cs) = some r) {s : Span} (start : s.start = offset)
    (stop : s.stop = offset + Text.byteCount r.written) :
    cutAlong d (s :: spans) done offset position (c :: cs) =
      cutAlong d spans (symbol (.placeholder s.name) :: done) s.stop
        (position + r.written.length) r.rest := by
  have text := append_of_placeholder? read
  have shorter := placeholder?_rest_length_lt read
  have lengths := congrArg List.length text
  rw [List.length_append] at lengths
  obtain ⟨y, w, whole⟩ := List.exists_cons_of_length_pos (l := r.written) (by omega)
  rw [whole, Text.byteCount] at stop
  rw [whole, List.cons_append] at text
  obtain ⟨rfl, same⟩ := List.cons.inj text
  have bytes : s.stop - offset - y.utf8Size = Text.byteCount w := by omega
  have left : Text.dropBytes (s.stop - offset - y.utf8Size) cs = r.rest := by
    rw [bytes, ← same, Text.dropBytes_append]
  have passed : (y :: cs).length - r.rest.length = r.written.length := by omega
  rw [cutAlong, if_neg separates]
  simp only [take?, if_pos start, left, passed]

/-- **The second pass along the placeholders cuts the text as the one without a list does.** -/
theorem cutAlong_eq (offset : Nat) (done : List Lexeme) (position : Nat) (cs : List Char) :
    cutAlong d (spansFrom d offset cs) done offset position cs = cut d done position cs := by
  fun_induction cut d done position cs generalizing offset with
  | case1 => rw [cutAlong]
  | case2 done position c cs separates ih =>
    have plain := (isAllowed_separator (d := d) separates).1
    rw [cutAlong, if_pos separates, spansFrom_missing (placeholder?_eq_none plain), ih]
  | case3 done position c cs separates r read ih =>
    rw [spansFrom_found read, cutAlong_taken separates read rfl rfl, ih]
  | case4 done position c cs separates missing t sign ih =>
    rw [cutAlong, if_neg separates]
    simp only [untaken missing, sign]
    rw [spansFrom_missing missing, ih]
  | case5 done position c cs separates missing sign numeric run unread =>
    rw [cutAlong, if_neg separates]
    simp only [untaken missing, sign, numeric, if_true, run, unread]
  | case6 done position c cs separates missing sign numeric run rest x read follower found =>
    rw [cutAlong, if_neg separates]
    simp only [untaken missing, sign, numeric, if_true, run, read, rest, found]
  | case7 done position c cs separates missing sign numeric run rest x read found ih =>
    rw [cutAlong, if_neg separates]
    simp only [untaken missing, sign, numeric, if_true, run, read, rest, found]
    rw [spansFrom_run (by decide) numeric, ih]
  | case8 done position c cs separates missing sign numeric starts name ih =>
    rw [cutAlong, if_neg separates]
    simp only [untaken missing, sign, numeric, Bool.false_eq_true, if_false, starts, if_true]
    rw [spansFrom_run (by decide) (Name.isPart_of_isStart (Bool.and_eq_true_iff.mp starts).2), ih]
  | case9 done position c cs separates missing sign numeric starts =>
    rw [cutAlong, if_neg separates]
    simp only [untaken missing, sign, numeric, starts, Bool.false_eq_true, if_false]

end Second

/-! ## 5. Reading along the placeholders -/

/-- **Reading along the placeholders is reading**, of every text in every dialect: the same lexemes, and
the same fault. -/
theorem ofTextAlong_eq (d : Dialect) (text : String) : ofTextAlong d text = ofText d text := by
  have spans : (if d.placeholders then Placeholder.spans text else []) = spansFrom d 0 text.toList :=
    rfl
  simp only [ofTextAlong, spans, foreignAlong?_eq, cutAlong_eq]
  rfl

end Lexeme

end Reckoner
