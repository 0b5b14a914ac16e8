import Switchboard.Net.Endpoint

/-!
# Domains

A domain announces itself with an address and a port for calls, its name and its realm. The name
alone identifies it: procedures are addressed as `name/procedure`, so a name is neither empty nor
holds a slash.
-/

namespace Switchboard

/-- Why a text is no domain name. -/
inductive NameFault
  | empty
  | slash (name : String)
deriving DecidableEq, Repr

/-- The fault in words. -/
def NameFault.message : NameFault → String
  | .empty => "domain name is empty"
  | .slash name => "domain name '" ++ name ++ "' contains '/'"

/-- Checks that a text can be the name of a domain. -/
def checkDomainName (name : String) : Except NameFault Unit :=
  if name = "" then .error .empty
  else if '/' ∈ name.toList then .error (.slash name)
  else .ok ()

/-- What a domain says about itself. -/
structure DomainInfo where
  address : String
  port : UInt16
  name : String
  realm : String
deriving DecidableEq, Repr, Inhabited

namespace DomainInfo

/-- A description that still lacks the address. -/
def template (name realm : String) (port : UInt16) : DomainInfo := ⟨"", port, name, realm⟩

/-- The same domain at another address. -/
def withAddress (info : DomainInfo) (address : String) : DomainInfo := { info with address }

/-- Realm and name. -/
def qualifiedName (info : DomainInfo) : String := info.realm ++ "/" ++ info.name

/-- What identifies the domain: its name, whatever its realm. -/
def key (info : DomainInfo) : String := info.name

/-- The leading part of every procedure of the domain `name`. -/
def routePattern (name : String) : String := name ++ "/"

/-- The leading part of every procedure of the domain. -/
def pattern (info : DomainInfo) : String := routePattern info.name

/-- Where the domain takes calls, if its address is an address. -/
def endpoint? (info : DomainInfo) : Option Endpoint :=
  (Ip.parse? info.address).map fun ip => .ofIp ip info.port

/-- Checks the name. -/
def check (info : DomainInfo) : Except NameFault Unit := checkDomainName info.name

/-- The domain as it is shown: its qualified name at its address. -/
def render (info : DomainInfo) : String :=
  info.qualifiedName ++ "@" ++ info.address ++ ":" ++ toString info.port.toNat

end DomainInfo
end Switchboard
