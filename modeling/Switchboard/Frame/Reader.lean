import Switchboard.Frame.Fields
import Switchboard.Json.Record

/-!
# Reading frames

The type may stand anywhere among the members, so all others are kept until the object ends; the
type itself is judged where it stands.
-/

namespace Switchboard.Frame

/-- What has been read of a frame: its kind, and its other members, the last first. -/
structure Envelope where
  kind : Option FrameKind := none
  members : List Json.Member := []

/-- The kind that a found value names. -/
def kindOf : Found → Except Mismatch FrameKind
  | .str name =>
    match FrameKind.ofName? name with
    | some kind => .ok kind
    | none => .error (.unknownVariant name (FrameKind.all.map FrameKind.name))
  | found => .error (.invalidType found .variantName)

/-- How many levels of arrays and objects a field may hold. -/
def fieldDepth : Nat := Json.maxDepth - 1

/-- Reads a member of a frame. -/
def readMember (e : Envelope) (key : String) (input : Json.Input) :
    Except Json.Error (Envelope × Json.Input) := do
  if key = "type" then
    if e.kind.isSome then .error (.mismatch (.duplicateField "type"))
    else
      let input ← Json.malformed (Json.colon input)
      let (kind, rest) ← Json.scalar kindOf input
      .ok ({ e with kind := some kind }, rest)
  else
    let input ← Json.malformed (Json.colon input)
    let (v, rest) ← Json.value fieldDepth input
    .ok ({ e with members := (key, v) :: e.members }, rest)

/-- Reads a listed field of a frame. -/
def readItem (items : List Json) (input : Json.Input) :
    Except Json.Error (List Json × Json.Input) := do
  let (v, rest) ← Json.value fieldDepth input
  .ok (v :: items, rest)

/-- Reads a frame. -/
def readFrame (input : Json.Input) : Except Json.Error (Frame × Json.Input) := do
  match ← Json.malformed (Json.glimpse input) with
  | (.map, rest) =>
    let (e, rest) ← Json.members readMember (rest.length + 1) true {} rest.tail
    match e.kind with
    | none => .error (.mismatch (.missingField "type"))
    | some kind =>
      let rest ← Json.malformed (Json.endObject rest)
      let frame ← Json.mismatched (ofMembers kind e.members.reverse)
      .ok (frame, rest)
  | (.sequence, rest) =>
    match ← Json.malformed (Json.nextElement true rest.tail) with
    | none => .error (.mismatch (.missingField "type"))
    | some start =>
      let (kind, rest) ← Json.scalar kindOf start
      let (items, rest) ← Json.elements readItem (rest.length + 1) false [] rest
      let rest ← Json.malformed (Json.endList rest)
      let frame ← Json.mismatched (ofItems kind items.reverse)
      .ok (frame, rest)
  | (found, _) => .error (.mismatch (.invalidType found (.taggedSum typeName)))

/-- Reads a line that holds one frame. -/
def parse (line : String) : Except Json.Error Frame := Json.whole readFrame line

end Switchboard.Frame
