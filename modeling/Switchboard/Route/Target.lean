/-!
# Call targets

A call is addressed as `domain/procedure`; the procedure may hold further slashes. `parseTarget`
splits at the first slash and wants both parts to be there.
-/

namespace Switchboard

/-- Why a call cannot be routed. -/
inductive RouteError
  | noProcedure
  | noDomain
  | unknownDomain
  | busy
deriving DecidableEq, Repr

/-- The error in words. -/
def RouteError.message : RouteError → String
  | .noProcedure => "no procedure specified"
  | .noDomain => "no domain specified"
  | .unknownDomain => "target domain is unknown"
  | .busy => "too many forwarded calls in flight"

/-- Where a call goes: the domain that owns the procedure, and the procedure's name there. -/
structure Target where
  domain : String
  procedure : String
deriving DecidableEq, Repr

/-- The target of a call, if one is named. -/
def parseTarget : Option String → Except RouteError Target
  | none => .error .noProcedure
  | some text =>
    let domain := text.toList.takeWhile (· != '/')
    match text.toList.dropWhile (· != '/') with
    | [] => .error .noDomain
    | _ :: procedure =>
      if domain = [] ∨ procedure = [] then .error .noDomain
      else .ok ⟨String.ofList domain, String.ofList procedure⟩

end Switchboard
