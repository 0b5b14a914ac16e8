import Switchboard.Json.Printer
import Switchboard.Schema.Mismatch

/-!
# Errors of reading JSON

A text may fail to be JSON, or be JSON of another shape than its reader wants.
-/

namespace Switchboard.Json

/-- Why a text is not JSON, named by the first offence met from left to right. -/
inductive Defect
  | endInValue
  | endInString
  | endInList
  | endInObject
  | expectedValue
  | expectedIdent
  | expectedColon
  | expectedListCommaOrEnd
  | expectedObjectCommaOrEnd
  | keyMustBeString
  | trailingComma
  | trailingCharacters
  | invalidNumber
  | numberOutOfRange
  | invalidEscape
  | unexpectedEndOfHexEscape
  | loneSurrogate
  | invalidCodePoint
  | controlCharacter
  | tooDeep
deriving DecidableEq, Repr, Inhabited

/-- A failed reading. -/
inductive Error
  | malformed (defect : Defect)
  | mismatch (m : Mismatch)
deriving DecidableEq, Repr

/-- A defect in words. -/
def Defect.message : Defect → String
  | .endInValue => "EOF while parsing a value"
  | .endInString => "EOF while parsing a string"
  | .endInList => "EOF while parsing a list"
  | .endInObject => "EOF while parsing an object"
  | .expectedValue => "expected value"
  | .expectedIdent => "expected ident"
  | .expectedColon => "expected " ++ Mismatch.marked ":"
  | .expectedListCommaOrEnd =>
    "expected " ++ Mismatch.marked "," ++ " or " ++ Mismatch.marked "]"
  | .expectedObjectCommaOrEnd =>
    "expected " ++ Mismatch.marked "," ++ " or " ++ Mismatch.marked "\x7d"
  | .keyMustBeString => "key must be a string"
  | .trailingComma => "trailing comma"
  | .trailingCharacters => "trailing characters"
  | .invalidNumber => "invalid number"
  | .numberOutOfRange => "number out of range"
  | .invalidEscape => "invalid escape"
  | .unexpectedEndOfHexEscape => "unexpected end of hex escape"
  | .loneSurrogate => "lone leading surrogate in hex escape"
  | .invalidCodePoint => "invalid unicode code point"
  | .controlCharacter => "control character (\\u0000-\\u001F) found while parsing a string"
  | .tooDeep => "recursion limit exceeded"

/-- An error in words; floats are written as JSON writes them. -/
def Error.message : Error → String
  | .malformed d => d.message
  | .mismatch m => m.message fun x => String.ofList (writeFloat x)

end Switchboard.Json
