import Switchboard.Json.Record

/-!
# Arguments and results of calls

A call carries positional and named arguments, and so does its result; both are passed through
untouched. Named ones are a map: their keys ascend.
-/

namespace Switchboard

/-- Positional arguments. -/
abbrev Args := List Json

/-- Named arguments, sorted by name. -/
abbrev KwArgs := List Json.Member

/-- What a call returns. -/
structure CallResult where
  args : Args := []
  kwargs : KwArgs := []
deriving DecidableEq, Repr, Inhabited

namespace CallResult

/-- A result as a JSON value. -/
def toJson (r : CallResult) : Json := .obj [("args", .arr r.args), ("kwargs", .obj r.kwargs)]

/-- A result as text. -/
def render (r : CallResult) : String := r.toJson.render

/-- Reads a sequence of free values that enters at most `levels` levels. -/
def readArgs (levels : Nat) (input : Json.Input) : Except Json.Error (Args × Json.Input) := do
  match ← Json.malformed (Json.glimpse input) with
  | (.sequence, _) =>
    let (v, rest) ← Json.value levels input
    match v.normalize with
    | .arr items => .ok (items, rest)
    | _ => .ok ([], rest)
  | (found, _) => .error (.mismatch (.invalidType found .sequence))

/-- Reads a map of free values that enters at most `levels` levels. -/
def readKwArgs (levels : Nat) (input : Json.Input) : Except Json.Error (KwArgs × Json.Input) := do
  match ← Json.malformed (Json.glimpse input) with
  | (.map, _) =>
    let (v, rest) ← Json.value levels input
    match v.normalize with
    | .obj members => .ok (members, rest)
    | _ => .ok ([], rest)
  | (found, _) => .error (.mismatch (.invalidType found .map))

/-- Reads a result. -/
def read (input : Json.Input) : Except Json.Error (CallResult × Json.Input) :=
  Json.record "CallResult" ["args", "kwargs"]
    (fun name r input =>
      if name = "args" then
        (readArgs (Json.maxDepth - 1) input).map fun (args, rest) => ({ r with args }, rest)
      else
        (readKwArgs (Json.maxDepth - 1) input).map fun (kwargs, rest) => ({ r with kwargs }, rest))
    {} input

/-- Reads a text that holds one result. -/
def parse (text : String) : Except Json.Error CallResult := Json.whole read text

end CallResult
end Switchboard
