import Reckoner.Text.UpperCase.Table

/-!
# Upper case

Names are kept in upper case. The rule is the full upper-casing of the Unicode character database,
without any dependence on a language: a character may turn into two or three (`ß` into `SS`, the
ligature `ﬁ` into `FI`), and a few characters outside ASCII turn into ASCII letters (`ı` into `I`,
`ſ` into `S`).
-/

namespace Reckoner.Text

namespace UpperCase

/-- The upper case of one character. -/
def ofChar (c : Char) : List Char :=
  if c.toNat < 128 then
    [c.toUpper]
  else
    match expansions.lookup c.toNat with
    | some codes => codes.map Char.ofNat
    | none =>
      match runs.find? (·.contains c.toNat) with
      | some run => [Char.ofNat (c.toNat + run.shift).toNat]
      | none => [c]

/-- An ASCII character has one upper-case character, the usual one. -/
theorem ofChar_ascii {c : Char} (h : c.toNat < 128) : ofChar c = [c.toUpper] := by
  simp [ofChar, h]

end UpperCase

/-- The upper case of a text, character by character. -/
def upperCase (s : String) : String :=
  String.ofList (s.toList.flatMap UpperCase.ofChar)

end Reckoner.Text
