import Switchboard.Config.Basic
import Switchboard.Schema.Record

/-!
# The names of the settings

Each section is a flat record whose missing fields keep their defaults; the configuration is a
record of the log level and the sections. What the formats share is said here once.
-/

namespace Switchboard.Config

open Schema (Field Record)

/-- The section `domain`. -/
def domainRecord : Record DomainSection where
  name := "DomainSection"
  fields :=
    [.of "name" Found.asString fun name s => { s with name },
      .of "realm" Found.asString fun realm s => { s with realm }]
  start := {}

/-- The section `rpc`. -/
def rpcRecord : Record RpcSection where
  name := "RpcSection"
  fields :=
    [.of "router_address" Found.asString fun routerAddress s => { s with routerAddress },
      .of "advertise_port" (Found.asOptional Found.asWord16) fun advertisePort s =>
        { s with advertisePort }]
  start := {}

/-- The section `discovery`. -/
def discoveryRecord : Record DiscoverySection where
  name := "DiscoverySection"
  fields :=
    [.of "multicast_group" Found.asString fun multicastGroup s => { s with multicastGroup },
      .of "multicast_port" Found.asWord16 fun multicastPort s => { s with multicastPort },
      .of "heartbeat_period_ms" Found.asWord64 fun heartbeatPeriodMs s =>
        { s with heartbeatPeriodMs },
      .of "interface_poll_period_ms" Found.asWord64 fun interfacePollPeriodMs s =>
        { s with interfacePollPeriodMs },
      .of "receive_buffer_size" Found.asCount fun receiveBufferSize s =>
        { s with receiveBufferSize }]
  start := {}

/-- The section `routing`. -/
def routingRecord : Record RoutingSection where
  name := "RoutingSection"
  fields :=
    [.of "max_in_flight_calls" Found.asCount fun maxInFlightCalls s => { s with maxInFlightCalls }]
  start := {}

/-- The name of the configuration in messages. -/
def recordName : String := "AppConfig"

/-- The parts of the configuration, in order. -/
inductive Part
  | logLevel
  | domain
  | rpc
  | discovery
  | routing
deriving DecidableEq, Repr

namespace Part

/-- All parts, in order. -/
def all : List Part := [logLevel, domain, rpc, discovery, routing]

/-- The name of a part. -/
def name : Part → String
  | logLevel => "log_level"
  | domain => "domain"
  | rpc => "rpc"
  | discovery => "discovery"
  | routing => "routing"

/-- The part of a name. -/
def ofName? (s : String) : Option Part := all.find? (·.name == s)

/-- The names of all parts, in order. -/
def names : List String := all.map name

end Part
end Switchboard.Config
