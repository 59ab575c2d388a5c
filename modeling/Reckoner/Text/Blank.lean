/-!
# White space

Names, numbers and stored expressions may be surrounded by white space, and a placeholder may hold
some inside its braces. What counts is the Unicode property `White_Space`: twenty-five characters.
The byte order mark and the zero-width space do not have it.

`isBlank` is the class, `trim` takes it off both ends of a text.
-/

namespace Reckoner.Text

/-- Whether a character has the Unicode property `White_Space`. -/
def isBlank (c : Char) : Bool :=
  (0x09 ≤ c.toNat && c.toNat ≤ 0x0d) || c.toNat == 0x20 || c.toNat == 0x85 || c.toNat == 0xa0 ||
  c.toNat == 0x1680 || (0x2000 ≤ c.toNat && c.toNat ≤ 0x200a) || c.toNat == 0x2028 ||
  c.toNat == 0x2029 || c.toNat == 0x202f || c.toNat == 0x205f || c.toNat == 0x3000

/-- The characters between the white space at both ends. -/
def trimmed (cs : List Char) : List Char :=
  ((cs.dropWhile isBlank).reverse.dropWhile isBlank).reverse

/-- A text without the white space at both ends. -/
def trim (s : String) : String :=
  String.ofList (trimmed s.toList)

end Reckoner.Text
