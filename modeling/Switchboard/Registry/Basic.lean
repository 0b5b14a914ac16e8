import Switchboard.Call.Invocation
import Switchboard.Domain.Info
import Switchboard.Store.Table

/-!
# The session table

The registry knows, for each domain, how far its session is: one attempt to reach it is under way,
or calls can be forwarded to it. The home domain is there from the start. Besides the table it
counts the calls that may still be forwarded.
-/

namespace Switchboard

/-- Tells the attempts to reach domains apart. -/
abbrev SessionId := Nat

/-- Tells connections apart. -/
abbrev ConnectionId := Nat

/-- The number under which the home connection provides a pattern. -/
abbrev RegistrationId := Nat

/-- Tells calls apart. -/
abbrev CallId := Nat

/-- Tells requests for the session table apart. -/
abbrev QueryId := Nat

/-- What a usable session has: the connection that takes its calls, and the registration on the
home connection that brings them here. -/
structure Link where
  connection : ConnectionId
  registration : RegistrationId
deriving DecidableEq, Repr

/-- The session of a domain. -/
inductive Entry
  /-- The home domain, served by the home connection. -/
  | home (id : SessionId) (link : Link)
  /-- An attempt to reach the domain is under way. -/
  | connecting (id : SessionId) (address : Endpoint)
  /-- Calls can be forwarded. -/
  | connected (id : SessionId) (address : Endpoint) (link : Link)
deriving DecidableEq, Repr

namespace Entry

/-- The attempt that the session belongs to. -/
def id : Entry → SessionId
  | home id _ | connecting id _ | connected id _ _ => id

/-- Where the domain is reached; the home domain is not reached anywhere. -/
def address? : Entry → Option Endpoint
  | home .. => none
  | connecting _ address | connected _ address _ => some address

/-- The link of a usable session. -/
def link? : Entry → Option Link
  | connecting .. => none
  | home _ link | connected _ _ link => some link

/-- Whether calls can be forwarded. -/
def isConnected (e : Entry) : Bool := e.link?.isSome

/-- Whether this is the session of the home domain. -/
def isHome : Entry → Bool
  | home .. => true
  | _ => false

end Entry

/-- The sessions by domain, and how many more calls may be forwarded. -/
structure Registry where
  table : Table String Entry
  permits : Nat
deriving DecidableEq, Repr

namespace Registry

/-- The registry of a home domain. -/
def start (name : String) (id : SessionId) (link : Link) (permits : Nat) : Registry :=
  ⟨(∅ : Table String Entry).insert name (.home id link), permits⟩

/-- All sessions, ordered by domain. -/
def listing (r : Registry) : List (String × Entry) := r.table.entries

/-- The link that calls to a domain take. -/
def route? (r : Registry) (domain : String) : Option Link := (r.table.get? domain).bind Entry.link?

end Registry
end Switchboard
