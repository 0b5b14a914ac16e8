import Switchboard.Net.Ip

/-!
# Endpoints

An endpoint is an address with a port. The text of a version 6 address stands in brackets, where
it may carry the number of a scope; scope zero is not written.
-/

namespace Switchboard

/-- Where a connection can be made to. -/
inductive Endpoint
  | v4 (ip : Ipv4) (port : UInt16)
  | v6 (ip : Ipv6) (scope : UInt32) (port : UInt16)
deriving DecidableEq, Repr

namespace Endpoint

/-- An address with a port. -/
def ofIp (ip : Ip) (port : UInt16) : Endpoint :=
  match ip with
  | .v4 ip => .v4 ip port
  | .v6 ip => .v6 ip 0 port

/-- The port. -/
def port : Endpoint → UInt16
  | .v4 _ port => port
  | .v6 _ _ port => port

/-- A decimal number below `bound`, of any number of digits. -/
def readNumber (bound : Nat) (s : List Char) : Option (Nat × List Char) :=
  let digits := s.takeWhile Char.isDigit
  let n := Nat.ofDigitChars 10 digits 0
  if digits = [] ∨ bound ≤ n then none else some (n, s.dropWhile Char.isDigit)

/-- A colon and a port. -/
def readPort (s : List Char) : Option (UInt16 × List Char) := do
  let s ← Ip.readChar ':' s
  let (n, s) ← readNumber UInt16.size s
  some (UInt16.ofNat n, s)

/-- A scope with its mark, or scope zero if there is none. -/
def readScope (s : List Char) : UInt32 × List Char :=
  match (Ip.readChar '%' s).bind (readNumber UInt32.size) with
  | some (n, rest) => (UInt32.ofNat n, rest)
  | none => (0, s)

/-- Reads a version 4 endpoint. -/
def readV4 (s : List Char) : Option (Endpoint × List Char) := do
  let (ip, s) ← Ipv4.read s
  let (port, s) ← readPort s
  some (.v4 ip port, s)

/-- Reads a version 6 endpoint. -/
def readV6 (s : List Char) : Option (Endpoint × List Char) := do
  let s ← Ip.readChar '[' s
  let (ip, s) ← Ipv6.read s
  let (scope, s) := readScope s
  let s ← Ip.readChar ']' s
  let (port, s) ← readPort s
  some (.v6 ip scope port, s)

/-- The endpoint that a whole text stands for. -/
def parse? (text : String) : Option Endpoint :=
  match (readV4 text.toList).orElse fun _ => readV6 text.toList with
  | some (e, []) => some e
  | _ => none

/-- An endpoint as text. -/
def write : Endpoint → List Char
  | .v4 ip port => ip.write ++ ':' :: Nat.toDigits 10 port.toNat
  | .v6 ip scope port =>
    let mark := if scope = 0 then [] else '%' :: Nat.toDigits 10 scope.toNat
    '[' :: (ip.write ++ mark ++ ']' :: ':' :: Nat.toDigits 10 port.toNat)

/-- An endpoint as a string. -/
def render (e : Endpoint) : String := String.ofList e.write

end Endpoint
end Switchboard
