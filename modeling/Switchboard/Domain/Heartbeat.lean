import Switchboard.Domain.Info
import Switchboard.Json.Record

/-!
# Heartbeats

A heartbeat is a datagram of at most 512 bytes: one byte for the version of the format, then a JSON
array of the address, the port, the name and the realm of a domain.

* `encode` fails only when the datagram would be too long.
* `decode` checks the size, the version, the payload, the name and the address in this order, so
  that a later format can change everything behind the version byte.
-/

namespace Switchboard.Heartbeat

/-- The version of the format. -/
def version : UInt8 := 1

/-- The most bytes a heartbeat may have. -/
def maxSize : Nat := 512

/-- Why a heartbeat is not written or not accepted. -/
inductive Error
  | insufficientData (needed available : Nat)
  | unsupportedVersion (version : UInt8)
  | malformedPayload (cause : Json.Error)
  | oversized (size max : Nat)
  | invalidDomain (fault : NameFault)
  | invalidAddress (address : String)
deriving DecidableEq, Repr

/-- The error in words. -/
def Error.message : Error → String
  | .insufficientData needed available =>
    "insufficient data: need at least " ++ toString needed ++ " bytes, got " ++ toString available
  | .unsupportedVersion version => "unsupported protocol version: " ++ toString version.toNat
  | .malformedPayload cause => "malformed payload: " ++ cause.message
  | .oversized size max =>
    "heartbeat of " ++ toString size ++ " bytes exceeds the " ++ toString max ++ " byte limit"
  | .invalidDomain fault => "invalid domain: " ++ fault.message
  | .invalidAddress address => "invalid rpc address: " ++ address

/-! ## Writing -/

/-- The payload as a JSON value. -/
def toJson (info : DomainInfo) : Json :=
  .arr [.str info.address, .num (.int info.port.toNat), .str info.name, .str info.realm]

/-- The bytes of a heartbeat, however many. -/
def bytes (info : DomainInfo) : List UInt8 := version :: Utf8.encode (toJson info).write

/-- The datagram of a heartbeat. -/
def encode (info : DomainInfo) : Except Error (List UInt8) :=
  let datagram := bytes info
  if maxSize < datagram.length then .error (.oversized datagram.length maxSize) else .ok datagram

/-! ## Reading -/

/-- Reads the element with number `index` of the payload. -/
def element {α : Type} (index : Nat) (read : Found → Except Mismatch α) (input : Json.Input) :
    Except Json.Error (α × Json.Input) := do
  match ← Json.malformed (Json.nextElement (index == 0) input) with
  | none => .error (.mismatch (.invalidLength index (.tuple 4)))
  | some input => Json.scalar read input

/-- Reads the payload. -/
def readPayload (input : Json.Input) : Except Json.Error DomainInfo := do
  match ← Json.malformed (Json.glimpse input) with
  | (.sequence, rest) =>
    let (address, rest) ← element 0 Found.asString rest.tail
    let (port, rest) ← element 1 Found.asWord16 rest
    let (name, rest) ← element 2 Found.asString rest
    let (realm, rest) ← element 3 Found.asString rest
    let rest ← Json.malformed (Json.endList rest)
    Json.malformed (Json.finish rest)
    .ok ⟨address, port, name, realm⟩
  | (found, _) => .error (.mismatch (.invalidType found (.tuple 4)))

/-- Checks that a domain can be routed to and reached. -/
def checkUsable (info : DomainInfo) : Except Error DomainInfo :=
  match info.check with
  | .error fault => .error (.invalidDomain fault)
  | .ok () => if info.endpoint?.isSome then .ok info else .error (.invalidAddress info.address)

/-- The domain that a datagram announces. -/
def decode (datagram : List UInt8) : Except Error DomainInfo :=
  match datagram with
  | [] => .error (.insufficientData 1 0)
  | v :: payload =>
    if maxSize < datagram.length then .error (.oversized datagram.length maxSize)
    else if v ≠ version then .error (.unsupportedVersion v)
    else
      match readPayload (Utf8.symbols payload) with
      | .error cause => .error (.malformedPayload cause)
      | .ok info => checkUsable info

end Switchboard.Heartbeat
