import Reckoner.Rejection
import Reckoner.Text.Blank
import Reckoner.Text.UpperCase

/-!
# Names

Variables and formulas have names of capital letters, digits and underscores that do not start with a
digit. A name may be given in any case and with white space around it; it is kept in its normal form.
-/

namespace Reckoner

namespace Name

/-- A character that may start a name. -/
def isStart (c : Char) : Bool :=
  c.isUpper || c == '_'

/-- A character that may go on in a name. -/
def isPart (c : Char) : Bool :=
  c.isUpper || c.isDigit || c == '_'

theorem isPart_of_isStart {c : Char} (h : isStart c = true) : isPart c = true := by
  simp only [isStart, isPart, Bool.or_eq_true] at h ⊢
  rcases h with h | h <;> simp [h]

/-- Whether a text is a name. -/
def isValid (s : String) : Bool :=
  s.toList.head?.any isStart && s.toList.all isPart

/-- A given name without white space around it and in upper case. -/
def normalize (s : String) : String :=
  Text.upperCase (Text.trim s)

end Name

/-- A name in its normal form. -/
structure Name where
  text : String
  valid : Name.isValid text = true
  deriving DecidableEq

/-- The name that a text gives. -/
def Name.ofText (s : String) : Except Rejection Name :=
  if h : Name.isValid (Name.normalize s) = true then
    .ok ⟨Name.normalize s, h⟩
  else
    .error (.invalidName (Text.trim s))

end Reckoner
