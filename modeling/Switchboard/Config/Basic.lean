import Switchboard.Domain.Heartbeat
import Switchboard.Json.Basic

/-!
# Configuration

Every setting has a default. `Config.validate` checks all that the rest relies on and names the
first setting that is of no use; the settings that are texts of addresses are read by the accessors
`routerAddress?`, `advertisedPort?` and `multicastGroup?`.
-/

namespace Switchboard

/-- The identity that is announced. -/
structure DomainSection where
  name : String := "default"
  realm : String := "default"
deriving DecidableEq, Repr, Inhabited

/-- The local router and the port that is announced. -/
structure RpcSection where
  routerAddress : String := "127.0.0.1:8000"
  advertisePort : Option UInt16 := none
deriving DecidableEq, Repr, Inhabited

/-- How heartbeats are sent and received. -/
structure DiscoverySection where
  multicastGroup : String := "239.0.0.1"
  multicastPort : UInt16 := 10984
  heartbeatPeriodMs : UInt64 := 2000
  interfacePollPeriodMs : UInt64 := 2000
  receiveBufferSize : UInt64 := 512
deriving DecidableEq, Repr, Inhabited

/-- The bound on forwarded calls. -/
structure RoutingSection where
  maxInFlightCalls : UInt64 := 64
deriving DecidableEq, Repr, Inhabited

/-- All settings. -/
structure Config where
  logLevel : String := "info"
  domain : DomainSection := {}
  rpc : RpcSection := {}
  discovery : DiscoverySection := {}
  routing : RoutingSection := {}
deriving DecidableEq, Repr, Inhabited

namespace Config

/-- A setting that is of no use. -/
inductive Fault
  | domainName (fault : NameFault)
  | realmEmpty
  | routerAddress (text : String)
  | groupAddress (text : String)
  | groupNotMulticast (ip : Ipv4)
  | heartbeatPeriod
  | pollPeriod
  | receiveBuffer
  | maxInFlight
deriving DecidableEq, Repr

/-- What is wrong, in words. -/
def Fault.describe : Fault → String
  | domainName fault => "domain.name: " ++ (Heartbeat.Error.invalidDomain fault).message
  | realmEmpty => "domain.realm is empty"
  | routerAddress text => "rpc.router_address '" ++ text ++ "' is not an ip:port pair"
  | groupAddress text => "discovery.multicast_group '" ++ text ++ "' is not an IPv4 address"
  | groupNotMulticast ip =>
    "discovery.multicast_group " ++ ip.render ++ " is not a multicast address"
  | heartbeatPeriod => "discovery.heartbeat_period_ms must be positive"
  | pollPeriod => "discovery.interface_poll_period_ms must be positive"
  | receiveBuffer =>
    "discovery.receive_buffer_size must be at least " ++ toString Heartbeat.maxSize
  | maxInFlight => "routing.max_in_flight_calls must be at least 1"

/-- The fault as a message. -/
def Fault.message (f : Fault) : String := "invalid configuration: " ++ f.describe

/-! ## Derived values -/

/-- Where the local router listens. -/
def routerAddress? (c : Config) : Except Fault Endpoint :=
  match Endpoint.parse? c.rpc.routerAddress with
  | some e => .ok e
  | none => .error (.routerAddress c.rpc.routerAddress)

/-- The port that is announced: the router's, unless another one is set. -/
def advertisedPort? (c : Config) : Except Fault UInt16 :=
  match c.rpc.advertisePort with
  | some port => .ok port
  | none => c.routerAddress?.map Endpoint.port

/-- The group that heartbeats are sent to. -/
def multicastGroup? (c : Config) : Except Fault Endpoint :=
  match Ipv4.parse? c.discovery.multicastGroup with
  | none => .error (.groupAddress c.discovery.multicastGroup)
  | some ip =>
    if ip.isMulticast then .ok (.v4 ip c.discovery.multicastPort)
    else .error (.groupNotMulticast ip)

/-- Requires a condition. -/
def require (condition : Bool) (fault : Fault) : Except Fault Unit :=
  if condition then .ok () else .error fault

/-- Checks everything that the rest relies on, in this order. -/
def validate (c : Config) : Except Fault Unit := do
  match checkDomainName c.domain.name with
  | .error fault => .error (.domainName fault)
  | .ok () =>
    require (c.domain.realm ≠ "") .realmEmpty
    let _ ← c.routerAddress?
    let _ ← c.multicastGroup?
    require (0 < c.discovery.heartbeatPeriodMs) .heartbeatPeriod
    require (0 < c.discovery.interfacePollPeriodMs) .pollPeriod
    require (Heartbeat.maxSize ≤ c.discovery.receiveBufferSize.toNat) .receiveBuffer
    require (0 < c.routing.maxInFlightCalls) .maxInFlight

/-- What a domain with this configuration announces, without its address. -/
def announcement? (c : Config) : Except Fault DomainInfo :=
  c.advertisedPort?.map (DomainInfo.template c.domain.name c.domain.realm)

end Config
end Switchboard
