import Switchboard.Json.Reader

/-!
# Passing over JSON values

A record passes over the values of fields it does not know. It checks their brackets and tokens,
but decodes nothing: a number may be too large, a string may hold half a surrogate pair or bytes
that are no UTF-8, and there is no limit on nesting.
-/

namespace Switchboard.Json

/-- An open bracket. -/
inductive Bracket
  | list
  | object
deriving DecidableEq, Repr

/-- The defect of a text that ends inside a bracket. -/
def Bracket.unclosed : Bracket → Defect
  | .list => .endInList
  | .object => .endInObject

/-- The defect of an element that neither ends its bracket nor is followed by a comma. -/
def Bracket.unseparated : Bracket → Defect
  | .list => .expectedListCommaOrEnd
  | .object => .expectedObjectCommaOrEnd

/-- Whether a symbol closes a bracket. -/
def Bracket.closes : Bracket → Symbol → Bool
  | .list, s => s == some ']'
  | .object, s => s == some '\x7d'

/-- The number of symbols of the escape behind a backslash. -/
def skipEscape : Input → Except Defect Nat
  | [] => .error .endInString
  | some 'u' :: rest => (hex4 rest).map fun _ => 5
  | some c :: _ => if (shortEscape? c).isSome then .ok 1 else .error .invalidEscape
  | none :: _ => .error .invalidEscape

/-- Passes over a string up to and with its closing quote, `skip` symbols of an escape first. -/
def skipString : (skip : Nat) → Input → Except Defect Input
  | _, [] => .error .endInString
  | skip + 1, _ :: rest => skipString skip rest
  | 0, s :: rest =>
    if s = some '"' then .ok rest
    else if s = some '\\' then
      match skipEscape rest with
      | .ok n => skipString n rest
      | .error e => .error e
    else if isControl s then .error .controlCharacter
    else skipString 0 rest

/-- Passes over an exponent behind its `e`. -/
def skipExponent (input : Input) : Except Defect Input :=
  let unsigned := match input with
    | some '+' :: rest => rest
    | some '-' :: rest => rest
    | rest => rest
  if digitRun unsigned = [] then .error .invalidNumber else .ok (afterDigits unsigned)

/-- Passes over what follows the whole part of a number. -/
def skipAfterWhole : Input → Except Defect Input
  | some '.' :: rest =>
    if digitRun rest = [] then .error .invalidNumber
    else
      match afterDigits rest with
      | some 'e' :: rest => skipExponent rest
      | some 'E' :: rest => skipExponent rest
      | rest => .ok rest
  | some 'e' :: rest => skipExponent rest
  | some 'E' :: rest => skipExponent rest
  | rest => .ok rest

/-- Passes over a number behind its sign. -/
def skipNumber : Input → Except Defect Input
  | [] => .error .invalidNumber
  | some '0' :: rest =>
    match rest with
    | s :: _ => if isDigit s then .error .invalidNumber else skipAfterWhole rest
    | [] => .ok []
  | s :: rest =>
    if isDigit s then skipAfterWhole (afterDigits (s :: rest)) else .error .invalidNumber

/-- Passes over a key with its colon. -/
def skipKey (input : Input) : Except Defect Input :=
  match skipBlank input with
  | [] => .error .endInObject
  | some '"' :: rest => do
    let rest ← skipString 0 rest
    colon rest
  | _ => .error .keyMustBeString

mutual

/-- Passes over a value inside the brackets of `stack`, the innermost first. -/
def skipFrom : (fuel : Nat) → (stack : List Bracket) → Input → Except Defect Input
  | 0, _, _ => .error .endInValue
  | fuel + 1, stack, input =>
    match skipBlank input with
    | [] => .error .endInValue
    | some 'n' :: rest => do skipAfter fuel stack true (← literal ['u', 'l', 'l'] rest)
    | some 't' :: rest => do skipAfter fuel stack true (← literal ['r', 'u', 'e'] rest)
    | some 'f' :: rest => do skipAfter fuel stack true (← literal ['a', 'l', 's', 'e'] rest)
    | some '"' :: rest => do skipAfter fuel stack true (← skipString 0 rest)
    | some '-' :: rest => do skipAfter fuel stack true (← skipNumber rest)
    | some '[' :: rest => skipAfter fuel (.list :: stack) false rest
    | some '\x7b' :: rest => skipAfter fuel (.object :: stack) false rest
    | s :: rest =>
      if isDigit s then do skipAfter fuel stack true (← skipNumber (s :: rest))
      else .error .expectedValue

/-- Passes over what follows a value, or an opening bracket if not `comma`: closing brackets, then
a comma and the next value. -/
def skipAfter : (fuel : Nat) → (stack : List Bracket) → (comma : Bool) → Input →
    Except Defect Input
  | 0, _, _, _ => .error .endInValue
  | _ + 1, [], _, input => .ok input
  | fuel + 1, bracket :: stack, comma, input =>
    match skipBlank input with
    | [] => .error bracket.unclosed
    | s :: rest =>
      if bracket.closes s then skipAfter fuel stack true rest
      else if comma && s != some ',' then .error bracket.unseparated
      else do
        let next := if comma then rest else s :: rest
        match bracket with
        | .list => skipFrom fuel (.list :: stack) next
        | .object => skipFrom fuel (.object :: stack) (← skipKey next)

end

/-- Passes over one value. -/
def skip (input : Input) : Except Defect Input := skipFrom (2 * input.length + 2) [] input

end Switchboard.Json
