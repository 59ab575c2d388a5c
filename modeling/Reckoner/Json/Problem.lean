/-!
# What is wrong with a JSON text

The first place where a text stops being JSON has one of these problems. Which one is reported can
depend on whether the reader wants the value there or only passes over it.
-/

namespace Reckoner.Json

/-- Why a text is not JSON, or goes beyond what is read. -/
inductive Problem
  | endInValue
  | endInText
  | endInList
  | endInObject
  | expectedValue
  | expectedWord
  | expectedColon
  | expectedCommaInList
  | expectedCommaInObject
  | keyNotText
  | trailingComma
  | trailingCharacters
  | invalidNumber
  | numberOutOfRange
  | controlCharacter
  /-- A backslash before a character that it cannot escape. -/
  | unknownEscape
  /-- A code unit that is not written with four hexadecimal digits. -/
  | malformedUnit
  /-- A leading surrogate before another unit than a trailing one, or a trailing one alone. -/
  | loneSurrogate
  /-- A leading surrogate with no unit behind it. -/
  | unfinishedPair
  | nestedTooDeep
  deriving DecidableEq, Repr

/-- The wording of a problem. -/
def Problem.message : Problem → String
  | endInValue => "EOF while parsing a value"
  | endInText => "EOF while parsing a string"
  | endInList => "EOF while parsing a list"
  | endInObject => "EOF while parsing an object"
  | expectedValue => "expected value"
  | expectedWord => "expected ident"
  | expectedColon => "expected `:`"
  | expectedCommaInList => "expected `,` or `]`"
  | expectedCommaInObject => "expected `,` or `\x7d`"
  | keyNotText => "key must be a string"
  | trailingComma => "trailing comma"
  | trailingCharacters => "trailing characters"
  | invalidNumber => "invalid number"
  | numberOutOfRange => "number out of range"
  | controlCharacter => "control character (\\u0000-\\u001F) found while parsing a string"
  | unknownEscape => "invalid escape"
  | malformedUnit => "invalid escape"
  | loneSurrogate => "lone leading surrogate in hex escape"
  | unfinishedPair => "unexpected end of hex escape"
  | nestedTooDeep => "recursion limit exceeded"

end Reckoner.Json
