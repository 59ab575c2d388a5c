import Reckoner.Proofs.Lexeme.Spelling

/-!
# Placeholders and lexemes

Placeholders are looked for twice: `Placeholder.spans` lists those of a whole text, and reading an
expression meets them one by one, between lexemes of other kinds. The two find the same.

* `Lexeme.placeholders_of_ofText`: the placeholders among the lexemes of a text are those that are
  listed, in their order; so the names listed are those of the lexemes (`Lexeme.mem_names_iff`).
* `Lexeme.ofText_congr`: where a text has none, it does not matter whether the dialect has.
-/

namespace Reckoner

namespace Placeholder

/-! ## 1. Texts without placeholders -/

/-- No placeholder starts anywhere in a text. -/
def Free (cs : List Char) : Prop :=
  ∀ rest, rest <:+ cs → read? rest = none

theorem free_cons {c : Char} {cs : List Char} :
    Free (c :: cs) ↔ read? (c :: cs) = none ∧ Free cs := by
  constructor
  · exact fun h => ⟨h _ List.suffix_rfl, fun rest hr => h rest (hr.trans (List.suffix_cons c cs))⟩
  · rintro ⟨first, others⟩ rest hr
    rcases List.suffix_cons_iff.mp hr with rfl | hr
    · exact first
    · exact others rest hr

theorem Free.suffix {rest cs : List Char} (h : Free cs) (hr : rest <:+ cs) : Free rest :=
  fun inner hi => h inner (hi.trans hr)

/-- **No placeholder is listed exactly if none starts anywhere.** -/
theorem spansFrom_eq_nil_iff {offset : Nat} {cs : List Char} :
    spansFrom offset cs = [] ↔ Free cs := by
  fun_induction spansFrom offset cs with
  | case1 =>
    refine ⟨fun _ rest hr => ?_, fun _ => rfl⟩
    rw [List.suffix_nil.mp hr]
    rfl
  | case2 offset c cs r found stop ih => simp [free_cons, found]
  | case3 offset c cs missing ih => rw [ih, free_cons, and_iff_right missing]

/-- A placeholder at the start of a text is the first that is listed. -/
theorem spansFrom_read {offset : Nat} {c : Char} {cs : List Char} {r : Reading}
    (h : read? (c :: cs) = some r) :
    spansFrom offset (c :: cs) =
      ⟨offset, offset + Text.byteCount r.written, String.ofList r.name⟩ ::
        spansFrom (offset + Text.byteCount r.written) r.rest := by
  rw [spansFrom]
  split
  · rename_i found
    cases h.symm.trans found
    rfl
  · rename_i missing
    cases h.symm.trans missing

/-- Where no placeholder starts, those behind the first character are listed. -/
theorem spansFrom_unread {offset : Nat} {c : Char} {cs : List Char} (h : read? (c :: cs) = none) :
    spansFrom offset (c :: cs) = spansFrom (offset + c.utf8Size) cs := by
  rw [spansFrom]
  split
  · rename_i found
    cases h.symm.trans found
  · rfl

/-- Characters that start no placeholder are passed over. -/
theorem spansFrom_skip {run : List Char} (offset : Nat) (plain : ∀ c ∈ run, c ≠ '{')
    (rest : List Char) :
    spansFrom offset (run ++ rest) = spansFrom (offset + Text.byteCount run) rest := by
  induction run generalizing offset with
  | nil => rfl
  | cons c run ih =>
    obtain ⟨brace, others⟩ := List.forall_mem_cons.mp plain
    have missing : read? (c :: (run ++ rest)) = none :=
      Lexeme.placeholder?_eq_none (d := .formula) brace
    rw [List.cons_append, spansFrom_unread missing, ih _ others, Text.byteCount, Nat.add_assoc]

end Placeholder

namespace Lexeme

/-! ## 2. Dialects that differ in placeholders only -/

section Congr

variable {d d' : Dialect}

theorem placeholder?_of_free {cs : List Char} (h : Placeholder.Free cs) :
    placeholder? d cs = none := by
  unfold placeholder?
  split
  · exact h cs List.suffix_rfl
  · rfl

theorem isAllowed_congr (same : d.references = d'.references) (c : Char) :
    isAllowed d c = isAllowed d' c := by
  rw [isAllowed, isAllowed, same]

theorem foreign?_congr (same : d.references = d'.references) {cs : List Char}
    (h : Placeholder.Free cs) (position : Nat) :
    foreign? d position cs = foreign? d' position cs := by
  induction cs generalizing position with
  | nil => rw [foreign?, foreign?]
  | cons c cs ih =>
    rw [foreign?_plain (placeholder?_of_free h), foreign?_plain (placeholder?_of_free h),
      isAllowed_congr same, ih (Placeholder.free_cons.mp h).2]

theorem cut_congr (same : d.references = d'.references) {cs : List Char} (h : Placeholder.Free cs)
    (done : List Lexeme) (position : Nat) : cut d done position cs = cut d' done position cs := by
  fun_induction cut d done position cs with
  | case1 => rw [cut]
  | case2 done position c cs separates ih =>
    rw [cut, if_pos separates, ih (Placeholder.free_cons.mp h).2]
  | case3 done position c cs _ r found => cases (placeholder?_of_free h).symm.trans found
  | case4 done position c cs separates _ t sign ih =>
    rw [cut_plain separates (placeholder?_of_free h), sign, ih (Placeholder.free_cons.mp h).2]
  | case5 done position c cs separates _ sign numeric run unread =>
    simp only [cut_plain separates (placeholder?_of_free h), sign, numeric, if_true, run, unread]
  | case6 done position c cs separates _ sign numeric run rest x read follower found =>
    simp only [cut_plain separates (placeholder?_of_free h), sign, numeric, if_true, run, read,
      rest, found]
  | case7 done position c cs separates _ sign numeric run rest x read found ih =>
    simp only [cut_plain separates (placeholder?_of_free h), sign, numeric, if_true, run, read,
      rest, found]
    exact ih (h.suffix ((List.dropWhile_suffix _).trans (List.suffix_cons c cs)))
  | case8 done position c cs separates _ sign numeric starts name ih =>
    simp only [cut_plain separates (placeholder?_of_free h), sign, numeric, ← same, starts, if_true]
    exact ih (h.suffix ((List.dropWhile_suffix _).trans (List.suffix_cons c cs)))
  | case9 done position c cs separates _ sign numeric starts =>
    simp only [cut_plain separates (placeholder?_of_free h), sign, numeric, ← same, starts,
      Bool.false_eq_true, if_false]

/-- **Where a text has no placeholder, it does not matter whether the dialect has.** -/
theorem ofText_congr (same : d.references = d'.references) {text : String}
    (h : Placeholder.spans text = []) : ofText d text = ofText d' text := by
  have free := Placeholder.spansFrom_eq_nil_iff.mp h
  unfold ofText
  rw [foreign?_congr same free, cut_congr same free]

end Congr

/-! ## 3. The placeholders of a text -/

/-- The placeholders of an expression, from left to right, with repetitions. -/
def placeholders (ls : List Lexeme) : List String :=
  ls.filterMap fun
    | symbol (.placeholder name) => some name
    | _ => none

theorem mem_run {p : Char → Bool} {c y : Char} {cs : List Char} (start : p c = true)
    (h : y ∈ c :: cs.takeWhile p) : p y = true := by
  rcases List.mem_cons.mp h with rfl | h
  · exact start
  · exact List.mem_takeWhile_imp h

/-- A run of characters of a kind that has no braces starts no placeholder. -/
theorem placeholdersFrom_run {p : Char → Bool}
    (outside : [' ', '\t', '{', '+', '-', '*', '/', '(', ')'].any p = false) {c : Char}
    (starts : p c = true) (offset : Nat) (cs : List Char) :
    Placeholder.spansFrom offset (c :: cs) =
      Placeholder.spansFrom (offset + Text.byteCount (c :: cs.takeWhile p)) (cs.dropWhile p) := by
  have plain : ∀ y ∈ c :: cs.takeWhile p, y ≠ '{' :=
    fun y hy => (plain_of outside (mem_run starts hy)).2.1
  have split : c :: cs = (c :: cs.takeWhile p) ++ cs.dropWhile p :=
    congrArg (c :: ·) List.takeWhile_append_dropWhile.symm
  rw [split, Placeholder.spansFrom_skip offset plain]

theorem placeholders_of_cut {d : Dialect} {done : List Lexeme} {position : Nat} {cs : List Char}
    {ls : List Lexeme} (has : d.placeholders = true) (h : cut d done position cs = .ok ls) :
    ∀ offset, placeholders ls =
      placeholders done.reverse ++ (Placeholder.spansFrom offset cs).map Placeholder.Span.name := by
  fun_induction cut d done position cs with
  | case1 =>
    cases h
    simp [Placeholder.spansFrom]
  | case2 done position c cs separates ih =>
    intro offset
    have plain : c ≠ '{' := by
      rintro rfl
      cases separates
    rw [← List.singleton_append, Placeholder.spansFrom_skip offset
      (List.forall_mem_singleton.mpr plain), ih h]
  | case3 done position c cs separates r found ih =>
    intro offset
    rw [placeholder?, if_pos has] at found
    rw [Placeholder.spansFrom_read found, ih h]
    simp only [List.map_cons, List.reverse_cons, placeholders, List.filterMap_append,
      List.append_assoc]
    rfl
  | case4 done position c cs separates _ t sign ih =>
    intro offset
    rw [← List.singleton_append, Placeholder.spansFrom_skip offset
      (List.forall_mem_singleton.mpr (sign_of_ofChar? sign).2), ih h (offset + Text.byteCount [c])]
    simp [placeholders]
  | case5 => cases h
  | case6 => cases h
  | case7 done position c cs separates _ sign numeric run rest x read found ih =>
    intro offset
    have passed : Placeholder.spansFrom offset (c :: cs) =
        Placeholder.spansFrom (offset + Text.byteCount run) rest :=
      placeholdersFrom_run (by decide) numeric offset cs
    rw [passed, ih h (offset + Text.byteCount run)]
    simp [placeholders]
  | case8 done position c cs separates _ sign numeric starts name ih =>
    intro offset
    have passed : Placeholder.spansFrom offset (c :: cs) =
        Placeholder.spansFrom (offset + Text.byteCount name) (cs.dropWhile Name.isPart) :=
      placeholdersFrom_run (by decide) (Name.isPart_of_isStart (Bool.and_eq_true_iff.mp starts).2)
        offset cs
    rw [passed, ih h (offset + Text.byteCount name)]
    simp [placeholders]
  | case9 => cases h

/-- **The placeholders among the lexemes of a text are those that are listed**, in their order. -/
theorem placeholders_of_ofText {d : Dialect} {text : String} {ls : List Lexeme}
    (has : d.placeholders = true) (h : ofText d text = .ok ls) :
    placeholders ls = (Placeholder.spans text).map Placeholder.Span.name := by
  unfold ofText at h
  split at h
  · cases h
  · exact placeholders_of_cut has h 0

theorem mem_placeholders {ls : List Lexeme} {name : String} :
    name ∈ placeholders ls ↔ symbol (.placeholder name) ∈ ls := by
  constructor
  · intro h
    obtain ⟨l, hl, e⟩ := List.mem_filterMap.mp h
    split at e
    · cases e
      exact hl
    · cases e
  · exact fun h => List.mem_filterMap.mpr ⟨_, h, rfl⟩

end Lexeme

/-- A name is listed once for all placeholders that have it. -/
theorem Placeholder.mem_names {text name : String} :
    name ∈ Placeholder.names text ↔ name ∈ (Placeholder.spans text).map Span.name := by
  rw [names, Text.mem_sortedDistinct]

/-- **The names listed for a text are those of the placeholders among its lexemes.** -/
theorem Lexeme.mem_names_iff {text name : String} {ls : List Lexeme}
    (h : ofText .formula text = .ok ls) :
    name ∈ Placeholder.names text ↔ symbol (.placeholder name) ∈ ls := by
  rw [Placeholder.mem_names, ← placeholders_of_ofText rfl h, mem_placeholders]

end Reckoner
