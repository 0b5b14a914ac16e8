import Switchboard.Config.Schema
import Switchboard.Json.Record

/-!
# Configurations in JSON

JSON can say what TOML cannot: every word of 64 bits, and a port that is absent on purpose.
-/

namespace Switchboard.Config

/-- Reads one part of a configuration. -/
def readPart (part : Part) (c : Config) (input : Json.Input) :
    Except Json.Error (Config × Json.Input) := do
  match part with
  | .logLevel =>
    let (logLevel, rest) ← Json.scalar Found.asString input
    return ({ c with logLevel }, rest)
  | .domain =>
    let (domain, rest) ← Json.flatRecord domainRecord input
    return ({ c with domain }, rest)
  | .rpc =>
    let (rpc, rest) ← Json.flatRecord rpcRecord input
    return ({ c with rpc }, rest)
  | .discovery =>
    let (discovery, rest) ← Json.flatRecord discoveryRecord input
    return ({ c with discovery }, rest)
  | .routing =>
    let (routing, rest) ← Json.flatRecord routingRecord input
    return ({ c with routing }, rest)

/-- Reads a configuration. -/
def readJson (input : Json.Input) : Except Json.Error (Config × Json.Input) :=
  Json.record recordName Part.names
    (fun name c input =>
      match Part.ofName? name with
      | some part => readPart part c input
      | none => .ok (c, input))
    {} input

/-- Reads a text that holds one configuration. -/
def parseJson (text : String) : Except Json.Error Config := Json.whole readJson text

/-- A configuration as a JSON value. A port that is not set is left out. -/
def toJson (c : Config) : Json :=
  let number (n : Nat) : Json := .num (.int n)
  let port := match c.rpc.advertisePort with
    | some port => [("advertise_port", number port.toNat)]
    | none => []
  .obj [("log_level", .str c.logLevel),
    ("domain", .obj [("name", .str c.domain.name), ("realm", .str c.domain.realm)]),
    ("rpc", .obj (("router_address", .str c.rpc.routerAddress) :: port)),
    ("discovery", .obj
      [("multicast_group", .str c.discovery.multicastGroup),
        ("multicast_port", number c.discovery.multicastPort.toNat),
        ("heartbeat_period_ms", number c.discovery.heartbeatPeriodMs.toNat),
        ("interface_poll_period_ms", number c.discovery.interfacePollPeriodMs.toNat),
        ("receive_buffer_size", number c.discovery.receiveBufferSize.toNat)]),
    ("routing", .obj [("max_in_flight_calls", number c.routing.maxInFlightCalls.toNat)])]

end Switchboard.Config
