import Reckoner.Text.Quoted.Table

/-!
# Quoted text

How a text is shown inside a message: between double quotes, on one line, with every character that
has no shape of its own written as an escape. Single quotes stay as they are.
-/

namespace Reckoner.Text

namespace Quoted

/-- Whether a character cannot be told from its shape: a control character, one of the ranges of
`shapeless`. -/
def isShapeless (c : Char) : Bool :=
  c.toNat < 0x20 || shapeless.any fun (first, last) => first ≤ c.toNat && c.toNat ≤ last

/-- One character as it stands inside the quotes. -/
def ofChar (c : Char) : List Char :=
  match c with
  | '\t' => ['\\', 't']
  | '\r' => ['\\', 'r']
  | '\n' => ['\\', 'n']
  | '"' => ['\\', '"']
  | '\\' => ['\\', '\\']
  | '\x00' => ['\\', '0']
  | c =>
    if isShapeless c then
      ['\\', 'u', '{'] ++ Nat.toDigits 16 c.toNat ++ ['}']
    else
      [c]

end Quoted

/-- A text between double quotes. -/
def quoted (s : String) : String :=
  String.ofList ('"' :: s.toList.flatMap Quoted.ofChar ++ ['"'])

end Reckoner.Text
