import Switchboard.Json.Skip
import Switchboard.Schema.Record

/-!
# Reading records from JSON

A record is an object whose members are its fields, in any order and each at most once, members of
other names being passed over. It may also be an array of its fields in their order, of which the
last ones may be missing.

* `scalar` reads a value that is decided by what is found at a glance.
* `record` reads a record, given how the value of each field is read.
-/

namespace Switchboard.Json

variable {α : Type}

/-- Reads a scalar. -/
def scalar (read : Found → Except Mismatch α) (input : Input) : Except Error (α × Input) := do
  let (found, rest) ← malformed (glimpse input)
  let x ← mismatched (read found)
  .ok (x, rest)

/-- What a record has read so far: its value, and the names of the fields it has met. -/
structure Progress (α : Type) where
  value : α
  met : List String

/-- Reads one member of a record. -/
def recordMember (names : List String) (read : String → α → Input → Except Error (α × Input))
    (p : Progress α) (key : String) (input : Input) : Except Error (Progress α × Input) := do
  if key ∈ names then
    if key ∈ p.met then .error (.mismatch (.duplicateField key))
    else
      let input ← malformed (colon input)
      let (x, rest) ← read key p.value input
      .ok (⟨x, key :: p.met⟩, rest)
  else
    let input ← malformed (colon input)
    let rest ← malformed (skip input)
    .ok (p, rest)

/-- Reads the fields of a record from the elements of an array. -/
def recordElements (read : String → α → Input → Except Error (α × Input)) :
    (names : List String) → (first : Bool) → α → Input → Except Error (α × Input)
  | [], _, x, input => .ok (x, input)
  | name :: names, first, x, input => do
    match ← malformed (nextElement first input) with
    | none => .ok (x, input)
    | some input =>
      let (x, rest) ← read name x input
      recordElements read names false x rest

/-- Reads the record `name` whose fields are `names`, starting from the value `start`. -/
def record (name : String) (names : List String)
    (read : String → α → Input → Except Error (α × Input)) (start : α) (input : Input) :
    Except Error (α × Input) := do
  match ← malformed (glimpse input) with
  | (.map, rest) =>
    let (p, rest) ← object (recordMember names read) ⟨start, []⟩ rest
    .ok (p.value, rest)
  | (.sequence, rest) =>
    let (x, rest) ← recordElements read names true start rest.tail
    let rest ← malformed (endList rest)
    .ok (x, rest)
  | (found, _) => .error (.mismatch (.invalidType found (.record name)))

/-- Reads a flat record. -/
def flatRecord (r : Schema.Record α) (input : Input) : Except Error (α × Input) :=
  record r.name r.names (fun name x => scalar fun found => r.assign name found x) r.start input

/-- Reads a text that holds one value. -/
def whole (read : Input → Except Error (α × Input)) (text : String) : Except Error α := do
  let (x, rest) ← read (Input.ofText text.toList)
  malformed (finish rest)
  .ok x

end Switchboard.Json
