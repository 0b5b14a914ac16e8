import Switchboard.Text.Printable
import Switchboard.Text.Combining

/-!
# Quoted texts in messages

A text inside a message stands between double quotes. Characters that would be invisible or would
end the quotation are written as escapes: the usual short ones, and the code point in braces for
the rest.
-/

namespace Switchboard.Quoted

/-- The digits of a number in base sixteen, lower case. -/
def hexDigits (n : Nat) : List Char := Nat.toDigits 16 n

/-- A character by its code point, as in the escape of U+200B. -/
def codePoint (c : Char) : List Char :=
  ['\\', 'u', '\x7b'] ++ hexDigits c.toNat ++ ['\x7d']

/-- One character as it stands between the quotes. -/
def character (c : Char) : List Char :=
  match c with
  | '\x00' => ['\\', '0']
  | '\t' => ['\\', 't']
  | '\r' => ['\\', 'r']
  | '\n' => ['\\', 'n']
  | '\\' => ['\\', '\\']
  | '"' => ['\\', '"']
  | c =>
    if Combining.isCombining c then codePoint c
    else if Printable.isPrintable c then [c]
    else codePoint c

/-- A text between double quotes. -/
def quote (text : String) : String :=
  String.ofList ('"' :: text.toList.flatMap character ++ ['"'])

end Switchboard.Quoted
