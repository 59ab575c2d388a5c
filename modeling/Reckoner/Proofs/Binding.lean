import Reckoner.Resolution

/-!
# Binding an expression

`Lexeme.bind` puts numbers in the place of symbols. Stated here:

* the symbols of a text that was read belong to its dialect (`Lexeme.ofText_admits`), so an expression
  of a variable holds no placeholder;
* binding by name succeeds exactly when every symbol has a value, and then fills each symbol in
  (`Lexeme.bind_fill`, `Lexeme.value_of_bind`);
* **binding by position is binding by name**: when the values are handed out in the order of the
  references, each reference takes its own, also where a name is referred to more than once
  (`Lexeme.bind_takeNext`).
-/

namespace Reckoner

/-- Where two steps succeed together, each of them does. -/
theorem bind_eq_ok {ε α β : Type} {x : Except ε α} {f : α → Except ε β} {b : β}
    (h : x >>= f = .ok b) : ∃ a, x = .ok a ∧ f a = .ok b := by
  cases x with
  | error e => cases h
  | ok a => exact ⟨a, rfl, h⟩

/-- Where two steps fail together, the first fails, or the second where the first has succeeded. -/
theorem bind_eq_error {ε α β : Type} {x : Except ε α} {f : α → Except ε β} {e : ε}
    (h : x >>= f = .error e) : x = .error e ∨ ∃ a, x = .ok a ∧ f a = .error e := by
  cases x with
  | error e' => exact .inl (congrArg _ (Except.error.inj h))
  | ok a => exact .inr ⟨a, rfl, h⟩

/-- Where the result of a step is put to use, the step succeeds. -/
theorem map_eq_ok {ε α β : Type} {x : Except ε α} {f : α → β} {b : β} (h : x.map f = .ok b) :
    ∃ a, x = .ok a ∧ f a = b := by
  cases x with
  | error e => cases h
  | ok a => exact ⟨a, rfl, Except.ok.inj h⟩

/-- Naming the failure of a step otherwise does not make it succeed. -/
theorem mapError_eq_ok {ε ε' α : Type} {x : Except ε α} {f : ε → ε'} {a : α}
    (h : x.mapError f = .ok a) : x = .ok a := by
  cases x with
  | error e => cases h
  | ok a => exact congrArg _ (Except.ok.inj h)

/-- Putting the result of a step to use makes no step fail. -/
theorem map_eq_error {ε α β : Type} {x : Except ε α} {f : α → β} {e : ε}
    (h : x.map f = .error e) : x = .error e := by
  cases x with
  | error e' => exact congrArg _ (Except.error.inj h)
  | ok a => cases h

/-- Where the failure of a step is named otherwise, the step fails. -/
theorem mapError_eq_error {ε ε' α : Type} {x : Except ε α} {f : ε → ε'} {e' : ε'}
    (h : x.mapError f = .error e') : ∃ e, x = .error e ∧ f e = e' := by
  cases x with
  | error e => exact ⟨e, rfl, Except.error.inj h⟩
  | ok a => cases h

/-- A list in which a step fails has an entry where it does. -/
theorem exists_of_mapM_error {ε α β : Type} {step : α → Except ε β} {e : ε} :
    ∀ {as : List α}, as.mapM step = .error e → ∃ a ∈ as, step a = .error e
  | [], h => by cases h
  | a :: as, h => by
      rw [List.mapM_cons] at h
      rcases bind_eq_error h with first | ⟨y, -, h⟩
      · exact ⟨a, List.mem_cons_self, first⟩
      rcases bind_eq_error h with others | ⟨ys, -, h⟩
      · obtain ⟨c, hc, fails⟩ := exists_of_mapM_error others
        exact ⟨c, List.mem_cons_of_mem _ hc, fails⟩
      · cases h

/-- A list over which a fold fails has an entry at which its step does. -/
theorem exists_of_foldlM_error {ε α β : Type} {step : β → α → Except ε β} {e : ε} :
    ∀ {as : List α} {b : β}, as.foldlM step b = .error e → ∃ a ∈ as, ∃ b, step b a = .error e
  | [], _, h => by cases h
  | a :: as, b, h => by
      rw [List.foldlM_cons] at h
      rcases bind_eq_error h with first | ⟨_, -, others⟩
      · exact ⟨a, List.mem_cons_self, b, first⟩
      · obtain ⟨c, hc, fails⟩ := exists_of_foldlM_error others
        exact ⟨c, List.mem_cons_of_mem _ hc, fails⟩

/-! ## 1. The symbols of a dialect -/

/-- Whether a dialect has a symbol. -/
def Dialect.admits (d : Dialect) : Symbol → Bool
  | .reference _ => d.references
  | .placeholder _ => d.placeholders

namespace Lexeme

theorem placeholders_of_placeholder? {d : Dialect} {cs : List Char} {r : Placeholder.Reading}
    (h : placeholder? d cs = some r) : d.placeholders = true := by
  unfold placeholder? at h
  split at h
  · assumption
  · cases h

/-- A placeholder of a dialect and what follows it make up the text. -/
theorem append_of_placeholder? {d : Dialect} {cs : List Char} {r : Placeholder.Reading}
    (h : placeholder? d cs = some r) : r.written ++ r.rest = cs := by
  rw [placeholder?, if_pos (placeholders_of_placeholder? h)] at h
  exact Placeholder.written_append_rest h

/-- Cutting adds no symbol that the dialect lacks. -/
theorem cut_admits {d : Dialect} {done : List Lexeme} {position : Nat} {cs : List Char}
    {ls : List Lexeme} (h : cut d done position cs = .ok ls)
    (hd : ∀ s, symbol s ∈ done → d.admits s = true) : ∀ s, symbol s ∈ ls → d.admits s = true := by
  fun_induction cut d done position cs with
  | case1 => cases h; simpa using hd
  | case2 done position c cs _ ih => exact ih h hd
  | case3 done position c cs _ r found ih =>
    refine ih h fun s hs => ?_
    rcases List.mem_cons.mp hs with e | hs
    · cases e
      exact placeholders_of_placeholder? found
    · exact hd s hs
  | case4 done position c cs _ _ t _ ih => exact ih h (by simpa using hd)
  | case5 => cases h
  | case6 => cases h
  | case7 done position c cs _ _ _ _ run rest x _ _ ih => exact ih h (by simpa using hd)
  | case8 done position c cs _ _ _ _ hn name ih =>
    refine ih h fun s hs => ?_
    rcases List.mem_cons.mp hs with e | hs
    · cases e
      exact (Bool.and_eq_true_iff.mp hn).1
    · exact hd s hs
  | case9 => cases h

/-- **The symbols of a text belong to its dialect.** -/
theorem ofText_admits {d : Dialect} {text : String} {ls : List Lexeme} (h : ofText d text = .ok ls)
    {s : Symbol} (hs : symbol s ∈ ls) : d.admits s = true := by
  unfold ofText at h
  split at h
  · cases h
  · exact cut_admits h (fun _ h => absurd h List.not_mem_nil) s hs

/-- The expression of a variable holds no placeholder. -/
theorem no_placeholder {text : String} {ls : List Lexeme} (h : ofText .dynamic text = .ok ls)
    (name : String) : symbol (.placeholder name) ∉ ls :=
  fun hs => Bool.false_ne_true (ofText_admits h hs)

theorem mem_references {ls : List Lexeme} {name : String} :
    name ∈ references ls ↔ symbol (.reference name) ∈ ls := by
  constructor
  · intro h
    obtain ⟨l, hl, e⟩ := List.mem_filterMap.mp h
    unfold reference? at e
    split at e
    · cases e
      exact hl
    · cases e
  · exact fun h => List.mem_filterMap.mpr ⟨_, h, rfl⟩

theorem references_reference (name : String) (ls : List Lexeme) :
    references (symbol (.reference name) :: ls) = name :: references ls := rfl

/-! ## 2. Binding by name -/

/-- The token of a lexeme, when every symbol has a value by its text. -/
def fill (value : String → Binary64) : Lexeme → Token
  | token t => t
  | symbol s => .number (value s.text)

theorem bind_cons {m : Type → Type} [Monad m] [LawfulMonad m] (value : Symbol → m Binary64)
    (l : Lexeme) (ls : List Lexeme) :
    bind value (l :: ls) = (do
      let t ← toToken value l
      let ts ← bind value ls
      pure (t :: ts)) :=
  List.mapM_cons

variable {ε : Type}

/-- Where every symbol has a value, binding fills the symbols in. -/
theorem bind_fill {value : Symbol → Except ε Binary64} {x : String → Binary64} :
    ∀ {ls : List Lexeme}, (∀ s, symbol s ∈ ls → value s = .ok (x s.text)) →
      bind value ls = .ok (ls.map (fill x))
  | [], _ => rfl
  | token t :: ls, h => by
      rw [bind_cons, bind_fill fun s hs => h s (List.mem_cons_of_mem _ hs)]
      rfl
  | symbol s :: ls, h => by
      rw [bind_cons, bind_fill fun s hs => h s (List.mem_cons_of_mem _ hs)]
      simp only [toToken, h s List.mem_cons_self]
      rfl

/-- Where binding succeeds, each lexeme has become a token. -/
theorem bind_cons_ok {value : Symbol → Except ε Binary64} {l : Lexeme} {ls : List Lexeme}
    {ts : List Token} (h : bind value (l :: ls) = .ok ts) :
    ∃ t us, toToken value l = .ok t ∧ bind value ls = .ok us ∧ ts = t :: us := by
  rw [bind_cons] at h
  obtain ⟨t, first, h⟩ := bind_eq_ok h
  obtain ⟨us, others, h⟩ := bind_eq_ok h
  cases h
  exact ⟨t, us, first, others, rfl⟩

/-- Where binding succeeds, every symbol has a value. -/
theorem value_of_bind {value : Symbol → Except ε Binary64} :
    ∀ {ls : List Lexeme} {ts : List Token}, bind value ls = .ok ts → ∀ s, symbol s ∈ ls →
      ∃ x, value s = .ok x
  | [], _, _, _, hs => absurd hs List.not_mem_nil
  | l :: ls, ts, h, s, hs => by
      obtain ⟨t, us, hl, hb, -⟩ := bind_cons_ok h
      rcases List.mem_cons.mp hs with e | hs
      · subst e
        obtain ⟨x, hx, -⟩ := map_eq_ok hl
        exact ⟨x, hx⟩
      · exact value_of_bind hb s hs

/-- **Where binding fails, a symbol has no value**, and its fault is that of the whole. -/
theorem exists_of_bind_error {value : Symbol → Except ε Binary64} {e : ε} :
    ∀ {ls : List Lexeme}, bind value ls = .error e → ∃ s, symbol s ∈ ls ∧ value s = .error e
  | [], h => by cases h
  | l :: ls, h => by
      rw [bind_cons] at h
      cases hl : toToken value l with
      | ok t =>
        cases hb : bind value ls with
        | ok ts =>
          rw [hl, hb] at h
          cases h
        | error e' =>
          rw [hl, hb] at h
          cases h
          obtain ⟨s, hs, hv⟩ := exists_of_bind_error hb
          exact ⟨s, List.mem_cons_of_mem _ hs, hv⟩
      | error e' =>
        rw [hl] at h
        cases h
        cases l with
        | token t => cases hl
        | symbol s =>
          refine ⟨s, List.mem_cons_self, ?_⟩
          cases hv : value s with
          | ok x => simp [toToken, hv, Functor.map, Except.map] at hl
          | error e'' => simpa [toToken, hv, Functor.map, Except.map] using hl

/-- Binding succeeds where every symbol has a value. -/
theorem exists_bind {value : Symbol → Except ε Binary64} {ls : List Lexeme}
    (h : ∀ s, symbol s ∈ ls → ∃ x, value s = .ok x) : ∃ ts, bind value ls = .ok ts := by
  cases hb : bind value ls with
  | ok ts => exact ⟨ts, rfl⟩
  | error e =>
    obtain ⟨s, hs, fails⟩ := exists_of_bind_error hb
    obtain ⟨x, hx⟩ := h s hs
    cases hx.symm.trans fails

/-- Binding asks for the values of the symbols that are there, and no others. -/
theorem bind_congr {value value' : Symbol → Except ε Binary64} {ls : List Lexeme}
    (h : ∀ s, symbol s ∈ ls → value s = value' s) : bind value ls = bind value' ls := by
  induction ls with
  | nil => rfl
  | cons l ls ih =>
    have first : toToken value l = toToken value' l := by
      cases l with
      | token t => rfl
      | symbol s => rw [toToken, toToken, h s List.mem_cons_self]
    rw [bind_cons, bind_cons, first, ih fun s hs => h s (List.mem_cons_of_mem _ hs)]

/-- Naming the failures of the symbols otherwise names that of the whole so. -/
theorem bind_mapError {ε' : Type} (f : ε → ε') (value : Symbol → Except ε Binary64)
    (ls : List Lexeme) :
    bind (fun s => (value s).mapError f) ls = (bind value ls).mapError f := by
  induction ls with
  | nil => rfl
  | cons l ls ih =>
    have first : toToken (fun s => (value s).mapError f) l = (toToken value l).mapError f := by
      cases l with
      | token t => rfl
      | symbol s =>
        simp only [toToken]
        cases value s <;> rfl
    rw [bind_cons, bind_cons, first, ih]
    cases toToken value l <;> cases bind value ls <;> rfl

/-! ## 3. Binding by position -/

/-- The value of a symbol that may only be a reference, when `value` gives the values of names. -/
def referenceValue (missing : String → ε) (value : String → Except ε Binary64) :
    Symbol → Except ε Binary64
  | .reference name => value name
  | .placeholder name => .error (missing name)

/-- **The values of the references, handed out in their order, bind every reference by its name.** -/
theorem bind_takeNext (missing : String → ε) {value : String → Except ε Binary64} :
    ∀ {ls : List Lexeme} {xs : List Binary64}, (∀ name, symbol (.placeholder name) ∉ ls) →
      (references ls).mapM value = .ok xs → ∃ ts, bind (referenceValue missing value) ls = .ok ts ∧
        ∀ left, (bind Frame.takeNext ls).run (xs ++ left) = .ok (ts, left)
  | [], xs, _, h => by
      cases h
      exact ⟨[], rfl, fun _ => rfl⟩
  | token t :: ls, xs, hp, h => by
      obtain ⟨ts, hn, ht⟩ := bind_takeNext missing
        (fun name hs => hp name (List.mem_cons_of_mem _ hs)) (h : (references ls).mapM value = .ok xs)
      refine ⟨t :: ts, by rw [bind_cons, hn]; rfl, fun left => ?_⟩
      rw [bind_cons]
      simp only [toToken, pure_bind, StateT.run_bind, ht]
      rfl
  | symbol (.placeholder name) :: ls, _, hp, _ => absurd List.mem_cons_self (hp name)
  | symbol (.reference name) :: ls, xs, hp, h => by
      rw [references_reference, List.mapM_cons] at h
      cases hv : value name with
      | error e => rw [hv] at h; cases h
      | ok x =>
        cases hm : (references ls).mapM value with
        | error e => rw [hv, hm] at h; cases h
        | ok ys =>
          rw [hv, hm] at h
          cases h
          obtain ⟨ts, hn, ht⟩ := bind_takeNext missing
            (fun name hs => hp name (List.mem_cons_of_mem _ hs)) hm
          refine ⟨.number x :: ts, ?_, fun left => ?_⟩
          · rw [bind_cons, hn]
            simp only [toToken, referenceValue, hv]
            rfl
          · rw [bind_cons]
            simp only [toToken, StateT.run_bind, StateT.run_map]
            show (do
              let p ← (bind Frame.takeNext ls).run (ys ++ left)
              pure (Token.number x :: p.1, p.2)) = _
            rw [ht]
            rfl

/-- The first reference without a value is the fault of the expression. -/
theorem bind_error {missing : String → ε} {value : String → Except ε Binary64} {e : ε} :
    ∀ {ls : List Lexeme}, (∀ name, symbol (.placeholder name) ∉ ls) →
      (references ls).mapM value = .error e → bind (referenceValue missing value) ls = .error e
  | [], _, h => by cases h
  | token t :: ls, hp, h => by
      rw [bind_cons, bind_error (fun name hs => hp name (List.mem_cons_of_mem _ hs)) h]
      rfl
  | symbol (.placeholder name) :: ls, hp, _ => absurd List.mem_cons_self (hp name)
  | symbol (.reference name) :: ls, hp, h => by
      rw [references_reference, List.mapM_cons] at h
      rw [bind_cons]
      simp only [toToken, referenceValue]
      cases hv : value name with
      | error e' =>
        rw [hv] at h
        cases h
        rfl
      | ok x =>
        cases hm : (references ls).mapM value with
        | error e' =>
          rw [hv, hm] at h
          cases h
          rw [bind_error (fun name hs => hp name (List.mem_cons_of_mem _ hs)) hm]
          rfl
        | ok ys => rw [hv, hm] at h; cases h

end Lexeme

end Reckoner
