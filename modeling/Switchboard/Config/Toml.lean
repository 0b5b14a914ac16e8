import Switchboard.Config.Schema
import Switchboard.Number.Shortest
import Switchboard.Toml.Reader
import Switchboard.Toml.Record

/-!
# Configurations in TOML

* `Config.parseToml` decodes a document. Its entries are checked in the order in which it defines
  them.
* `Config.renderToml` writes all settings; it fails exactly if a number exceeds what TOML can hold.
-/

namespace Switchboard.Config

/-- Why a document is no configuration. -/
inductive ParseError
  | malformed
  | mismatch (m : Mismatch)
deriving DecidableEq, Repr

/-- A float as messages about TOML show it: positionally, however large or small. -/
def writeFloat : Binary64 → String
  | .finite negative m k =>
    String.ofList ((if negative then ['-'] else []) ++ (Shortest.ofMagnitude ⟨m, k⟩).plain)
  | .infinite negative => if negative then "-inf" else "inf"
  | .nan => "NaN"

/-- Decodes one part of a configuration. -/
def assignPart (part : Part) (v : Toml) (c : Config) : Except Mismatch Config :=
  match part with
  | .logLevel => v.found.asString.map fun logLevel => { c with logLevel }
  | .domain => (Toml.flatRecord domainRecord v).map fun domain => { c with domain }
  | .rpc => (Toml.flatRecord rpcRecord v).map fun rpc => { c with rpc }
  | .discovery => (Toml.flatRecord discoveryRecord v).map fun discovery => { c with discovery }
  | .routing => (Toml.flatRecord routingRecord v).map fun routing => { c with routing }

/-- Decodes one entry of a configuration. -/
def assignEntry (name : String) (v : Toml) (c : Config) : Except Mismatch Config :=
  match Part.ofName? name with
  | some part => assignPart part v c
  | none => .ok c

/-- Decodes the entries of a document. -/
def ofToml (entries : List Toml.Entry) : Except Mismatch Config :=
  Toml.assignEntries assignEntry {} entries

/-- Decodes a document. -/
def parseToml (text : String) : Except ParseError Config :=
  match Toml.parse? text with
  | none => .error .malformed
  | some entries =>
    match ofToml entries with
    | .ok c => .ok c
    | .error m => .error (.mismatch m)

/-! ## Writing -/

/-- A key with the text of its value, as a line. -/
def setting (key : String) (value : List Char) : List Char :=
  key.toList ++ " = ".toList ++ value ++ ['\n']

/-- A text as a setting. -/
def textSetting (key value : String) : List Char := setting key (Toml.Text.write value.toList)

/-- A number as a setting. -/
def numberSetting (key : String) (value : Nat) : List Char := setting key (Nat.toDigits 10 value)

/-- A section behind an empty line. -/
def tableText (name : String) (settings : List (List Char)) : List Char :=
  "\n[".toList ++ name.toList ++ "]\n".toList ++ settings.flatten

/-- The numbers of a configuration that TOML might be unable to hold. -/
def wideNumbers (c : Config) : List UInt64 :=
  [c.discovery.heartbeatPeriodMs, c.discovery.interfacePollPeriodMs, c.discovery.receiveBufferSize,
    c.routing.maxInFlightCalls]

/-- Whether TOML can hold a number. -/
def isWritable (n : UInt64) : Bool := n.toNat < 9223372036854775808

/-- A configuration as a document, whether or not TOML can hold its numbers. -/
def writeToml (c : Config) : List Char :=
  let port := match c.rpc.advertisePort with
    | some port => [numberSetting "advertise_port" port.toNat]
    | none => []
  textSetting "log_level" c.logLevel
    ++ tableText "domain" [textSetting "name" c.domain.name, textSetting "realm" c.domain.realm]
    ++ tableText "rpc" (textSetting "router_address" c.rpc.routerAddress :: port)
    ++ tableText "discovery"
      [textSetting "multicast_group" c.discovery.multicastGroup,
        numberSetting "multicast_port" c.discovery.multicastPort.toNat,
        numberSetting "heartbeat_period_ms" c.discovery.heartbeatPeriodMs.toNat,
        numberSetting "interface_poll_period_ms" c.discovery.interfacePollPeriodMs.toNat,
        numberSetting "receive_buffer_size" c.discovery.receiveBufferSize.toNat]
    ++ tableText "routing"
      [numberSetting "max_in_flight_calls" c.routing.maxInFlightCalls.toNat]

/-- A configuration as a document, if TOML can hold its numbers. -/
def renderToml (c : Config) : Option String :=
  if c.wideNumbers.all isWritable then some (String.ofList c.writeToml) else none

/-- The message for a configuration that TOML cannot hold. -/
def renderFailure : String := "failed to serialize config: out-of-range value for u64 type"

end Switchboard.Config
