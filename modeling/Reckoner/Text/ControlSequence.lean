/-!
# Control sequences

To a terminal some characters are orders: a control character by itself, or a whole sequence that
begins with an escape character. Messages emphasise with such sequences what they name. Output that
goes to no terminal is *plain*: it holds no control character other than white space, and nothing of
a control sequence.

An escape character begins a sequence wherever it stands, so a sequence left open inside an emphasised
part ends with that part. White space is kept inside a sequence too; the characters behind it are
kept as well, up to a control character, with which the sequence goes on.

Main statements: plain text has printable characters only (`isPrintable_of_mem_plainFrom`), and a text
that has no others is plain already (`plainFrom_eq_self`).
-/

namespace Reckoner.Text

/-! ## 1. Characters -/

/-- A control character that is white space: tab, line feed, form feed, carriage return. -/
def isLayout (c : Char) : Bool :=
  c == '\t' || c == '\n' || c == '\x0c' || c == '\r'

/-- A character that plain text may hold. Beyond ASCII that is every character. -/
def isPrintable (c : Char) : Bool :=
  isLayout c || (0x20 ≤ c.toNat && c.toNat != 0x7f)

/-! ## 2. Sequences -/

/-- How far a control sequence has been read. -/
inductive ControlSequence
  /-- No sequence is open. -/
  | closed
  /-- Behind the escape character, and behind more characters that only go with others. -/
  | escape
  | escapeArgument
  /-- A sequence that ends with a letter or a sign like one. -/
  | control
  /-- The head of a string for a device: at its start, inside its numbers, behind them. -/
  | device
  | deviceNumber
  | deviceArgument
  /-- A string up to the byte `9c`, also one inside a character. -/
  | string
  /-- A title up to the bell. -/
  | title
  deriving DecidableEq, Repr

namespace ControlSequence

/-- Whether the code point of a character lies between two others. -/
def lies (c : Char) (first last : Nat) : Bool :=
  first ≤ c.toNat && c.toNat ≤ last

/-- Whether a character is kept when a sequence has been read so far. -/
def keeps : ControlSequence → Char → Bool
  | closed, c => isPrintable c
  | escape, c | escapeArgument, c | control, c => isLayout c
  | device, _ | deviceNumber, _ | deviceArgument, _ | string, _ | title, _ => false

/-- How far the sequence has been read behind another character. -/
def next (s : ControlSequence) (c : Char) : ControlSequence :=
  if c = '\x1b' then
    escape
  else if c = '\x18' || c = '\x1a' then
    closed
  else
    match s with
    | closed => closed
    | escape =>
      if c = '[' then control
      else if c = ']' then title
      else if c = 'P' then device
      else if c = 'X' || c = '^' || c = '_' then string
      else if lies c 0x20 0x2f then escapeArgument
      else if lies c 0x30 0x7e then closed
      else escape
    | escapeArgument => if lies c 0x30 0x7e then closed else escapeArgument
    | control => if lies c 0x40 0x7e then closed else control
    | device =>
      if lies c 0x20 0x2f then deviceArgument
      else if lies c 0x30 0x3f then deviceNumber
      else if lies c 0x40 0x7e then string
      else device
    | deviceNumber =>
      if lies c 0x20 0x2f then deviceArgument
      else if lies c 0x3c 0x7e then string
      else deviceNumber
    | deviceArgument => if lies c 0x30 0x7e then string else deviceArgument
    | string => if (String.utf8EncodeChar c).contains 0x9c then closed else string
    | title => if c = '\x07' then closed else title

theorem isPrintable_of_keeps {s : ControlSequence} {c : Char} (h : s.keeps c = true) :
    isPrintable c = true := by
  cases s with
  | closed => exact h
  | escape | escapeArgument | control =>
    have layout : isLayout c = true := h
    simp [isPrintable, layout]
  | device | deviceNumber | deviceArgument | string | title => cases h

end ControlSequence

/-! ## 3. Plain text -/

/-- What is kept of a text inside a sequence; `kept` says that the character before it was. Behind a
character that is kept printable ones are kept whatever sequence is open, and one beyond ASCII closes
it. -/
def plainFrom (kept : Bool) (s : ControlSequence) : List Char → List Char
  | [] => []
  | c :: cs =>
    if kept && isPrintable c then
      c :: plainFrom true (if c.toNat < 0x80 then s else .closed) cs
    else if s.keeps c then
      c :: plainFrom true (s.next c) cs
    else
      plainFrom false (s.next c) cs

/-- A text without its control sequences. -/
def plain (s : String) : String :=
  String.ofList (plainFrom false .closed s.toList)

/-- Plain text has printable characters only. -/
theorem isPrintable_of_mem_plainFrom {kept : Bool} {s : ControlSequence} {cs : List Char} {c : Char}
    (mem : c ∈ plainFrom kept s cs) : isPrintable c = true := by
  induction cs generalizing kept s with
  | nil => cases mem
  | cons d ds ih =>
    unfold plainFrom at mem
    split at mem
    · rename_i printable
      rcases List.mem_cons.mp mem with rfl | mem
      · exact (Bool.and_eq_true_iff.mp printable).2
      · exact ih mem
    · split at mem
      · rename_i kept
        rcases List.mem_cons.mp mem with rfl | mem
        · exact ControlSequence.isPrintable_of_keeps kept
        · exact ih mem
      · exact ih mem

/-- A text of printable characters is plain. -/
theorem plainFrom_eq_self {kept : Bool} {cs : List Char} (h : ∀ c ∈ cs, isPrintable c = true) :
    plainFrom kept .closed cs = cs := by
  induction cs generalizing kept with
  | nil => rfl
  | cons c cs ih =>
    have printable : isPrintable c = true := h c List.mem_cons_self
    have rest : ∀ {kept : Bool}, plainFrom kept .closed cs = cs :=
      ih fun d mem => h d (List.mem_cons_of_mem c mem)
    have closed : ControlSequence.closed.next c = .closed := by
      unfold ControlSequence.next
      split
      · rename_i escape
        rw [escape] at printable
        cases printable
      · split <;> rfl
    have keeps : ControlSequence.closed.keeps c = true := printable
    unfold plainFrom
    simp only [printable, keeps, closed, Bool.and_true, ite_self, if_true, rest]

/-! ## 4. Emphasis -/

/-- A text that a terminal shows in bold type. -/
def emphasized (s : String) : String :=
  "\x1b[1m" ++ s ++ "\x1b[0m"

end Reckoner.Text
