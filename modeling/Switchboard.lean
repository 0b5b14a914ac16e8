import Switchboard.Bridge
import Switchboard.Call.Signal
import Switchboard.Cli.Run
import Switchboard.Config.Json
import Switchboard.Discovery.Announcer
import Switchboard.Discovery.Listener
import Switchboard.Discovery.Monitor
import Switchboard.Main
import Switchboard.Rehearsal.Scene
import Switchboard.Session.Script
import Switchboard.Station
import Switchboard.Proofs.Exchange.Lifecycle
import Switchboard.Proofs.Exchange.Registrations
import Switchboard.Proofs.Station.Custody
import Switchboard.Proofs.Session.Frames
import Switchboard.Proofs.Exchange.Calls
import Switchboard.Proofs.Exchange.Connections
import Switchboard.Proofs.Bridge.Steps
import Switchboard.Proofs.Bridge.Wiring
import Switchboard.Proofs.Session.Answers
import Switchboard.Proofs.Session.Rest
import Switchboard.Proofs.Bridge.Course
import Switchboard.Proofs.Bridge.Forwarding
import Switchboard.Proofs.Bridge.Rest
import Switchboard.Proofs.Bridge.Relay
import Switchboard.Proofs.Text.Utf8
import Switchboard.Proofs.Json.Strings
import Switchboard.Proofs.Json.Numbers
import Switchboard.Proofs.Json.Tokens
import Switchboard.Proofs.Json.Values
import Switchboard.Proofs.Json.Normal
import Switchboard.Proofs.Schema.Scalars
import Switchboard.Proofs.Domain.Heartbeat
import Switchboard.Proofs.Frame.RoundTrip
import Switchboard.Proofs.Session.Loss
import Switchboard.Proofs.Session.Invocations
import Switchboard.Proofs.Session.Matching
import Switchboard.Proofs.Text.Digits
import Switchboard.Proofs.Net.Literals
import Switchboard.Proofs.Json.Grammar
import Switchboard.Proofs.Domain.Grammar
import Switchboard.Proofs.Toml.Strings
import Switchboard.Proofs.Toml.Lines
import Switchboard.Proofs.Toml.Tables
import Switchboard.Proofs.Toml.Bounds
import Switchboard.Proofs.Config.RoundTrip
import Switchboard.Proofs.Config.Startup
import Switchboard.Proofs.Exchange.Attempts
import Switchboard.Proofs.Route.Ownership
import Switchboard.Proofs.Station.Announcement
import Switchboard.Proofs.Exchange.Verdicts
import Switchboard.Proofs.Exchange.Deeds
import Switchboard.Proofs.Exchange.Outcomes
import Switchboard.Proofs.Exchange.Home
import Switchboard.Proofs.Exchange.Permits
import Switchboard.Proofs.Exchange.Losses
import Switchboard.Proofs.Config.Announcement
import Switchboard.Proofs.Store.History
import Switchboard.Proofs.Discovery.Tracking
import Switchboard.Proofs.Session.Handlers
import Switchboard.Proofs.Json.Graphic
import Switchboard.Proofs.Session.Lines
import Switchboard.Proofs.Session.Stream
import Switchboard.Proofs.Exchange.Stopping
import Switchboard.Proofs.Discovery.Truncation
import Switchboard.Proofs.Registry.Isolation
import Switchboard.Proofs.Exchange.Isolation
import Switchboard.Proofs.Toml.Changes
import Switchboard.Proofs.Toml.Additions
import Switchboard.Proofs.Config.Partial
import Switchboard.Proofs.Json.Numerals
import Switchboard.Proofs.Json.Syntax
import Switchboard.Proofs.Frame.Order
import Switchboard.Proofs.Call.Latch
import Switchboard.Proofs.Discovery.Addresses
import Switchboard.Proofs.Discovery.Appearances
import Switchboard.Proofs.Discovery.Cycles
import Switchboard.Proofs.Cli.Arguments
import Switchboard.Proofs.Config.Values
import Switchboard.Proofs.Cli.Layers
