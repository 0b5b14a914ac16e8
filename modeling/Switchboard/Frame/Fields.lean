import Switchboard.Frame.Basic

/-!
# The fields of frames

Once its type is known, the other members of a frame are decoded in the order in which they stand.
Unknown ones are passed over, no known one may occur twice, and what is missing in the end is
either left out lawfully or reported. A frame may also list its fields without their names.

* `Frame.ofMembers` decodes named fields.
* `Frame.ofItems` decodes listed fields.
-/

namespace Switchboard

/-- The fields of frames. -/
inductive FrameField
  | realm
  | session
  | message
  | request
  | procedure
  /-- The procedure of an invocation, which may be null. -/
  | addressed
  | args
  | kwargs
  | pattern
  | mode
  | registration
deriving DecidableEq, Repr

/-- The fields that have been read so far. -/
structure FrameSlots where
  realm : Option String := none
  session : Option UInt64 := none
  message : Option String := none
  request : Option UInt64 := none
  procedure : Option String := none
  addressed : Option (Option String) := none
  args : Option Args := none
  kwargs : Option KwArgs := none
  pattern : Option String := none
  mode : Option MatchMode := none
  registration : Option UInt64 := none
deriving DecidableEq, Repr

/-! ## Values -/

/-- What a value is at a glance. -/
def Json.found : Json → Found
  | .null => .null
  | .bool b => .bool b
  | .num n => n.found
  | .str s => .str s
  | .arr _ => .sequence
  | .obj _ => .map

namespace Frame

/-- A sequence of free values. -/
def asArgs (v : Json) : Except Mismatch Args :=
  match v.normalize with
  | .arr items => .ok items
  | _ => .error (.invalidType v.found .sequence)

/-- A map of free values. -/
def asKwArgs (v : Json) : Except Mismatch KwArgs :=
  match v.normalize with
  | .obj members => .ok members
  | _ => .error (.invalidType v.found .map)

/-- The match mode of a name. -/
def namedMode (name : String) : Except Mismatch MatchMode :=
  match MatchMode.ofName? name with
  | some mode => .ok mode
  | none => .error (.unknownVariant name MatchMode.names)

/-- A match mode: its name, or an object whose one member has its name and holds nothing. -/
def asMode : Json → Except Mismatch MatchMode
  | .str name => namedMode name
  | .obj [(name, content)] =>
    match namedMode name with
    | .error e => .error e
    | .ok mode =>
      match content with
      | .null | .obj [] => .ok mode
      | content => .error (.invalidType content.found .nothing)
  | .obj _ => .error (.invalidValue .map .singletonMap)
  | v => .error (.invalidType v.found .stringOrMap)

end Frame

/-! ## Fields -/

namespace FrameField

/-- The name of a field. -/
def name : FrameField → String
  | realm => "realm"
  | session => "session"
  | message => "message"
  | request => "request"
  | procedure => "procedure"
  | addressed => "procedure"
  | args => "args"
  | kwargs => "kwargs"
  | pattern => "pattern"
  | mode => "match"
  | registration => "registration"

/-- Whether a field has been read. -/
def isRead (s : FrameSlots) : FrameField → Bool
  | realm => s.realm.isSome
  | session => s.session.isSome
  | message => s.message.isSome
  | request => s.request.isSome
  | procedure => s.procedure.isSome
  | addressed => s.addressed.isSome
  | args => s.args.isSome
  | kwargs => s.kwargs.isSome
  | pattern => s.pattern.isSome
  | mode => s.mode.isSome
  | registration => s.registration.isSome

/-- Decodes the value of a field. -/
def read (s : FrameSlots) (v : Json) : FrameField → Except Mismatch FrameSlots
  | realm => v.found.asString.map fun x => { s with realm := some x }
  | session => v.found.asWord64.map fun x => { s with session := some x }
  | message => v.found.asString.map fun x => { s with message := some x }
  | request => v.found.asWord64.map fun x => { s with request := some x }
  | procedure => v.found.asString.map fun x => { s with procedure := some x }
  | addressed => (v.found.asOptional Found.asString).map fun x => { s with addressed := some x }
  | args => (Frame.asArgs v).map fun x => { s with args := some x }
  | kwargs => (Frame.asKwArgs v).map fun x => { s with kwargs := some x }
  | pattern => v.found.asString.map fun x => { s with pattern := some x }
  | mode => (Frame.asMode v).map fun x => { s with mode := some x }
  | registration => v.found.asWord64.map fun x => { s with registration := some x }

end FrameField

/-- The fields of a kind of frame, in order. Those that may be left out stand last. -/
def FrameKind.fields : FrameKind → List FrameField
  | hello => [.realm]
  | welcome => [.session]
  | abort => [.message]
  | call => [.request, .procedure, .args, .kwargs]
  | result => [.request, .args, .kwargs]
  | error => [.request, .message]
  | register => [.request, .pattern, .mode]
  | registered => [.request, .registration]
  | unregister => [.request, .registration]
  | unregistered => [.request]
  | invocation => [.request, .registration, .addressed, .args, .kwargs]
  | yield => [.request, .args, .kwargs]

/-- How many fields of a kind of frame may not be left out. -/
def FrameKind.required : FrameKind → Nat
  | hello | welcome | abort | result | unregistered | yield => 1
  | call | error | registered | unregister | invocation => 2
  | register => 3

namespace Frame

/-- The name of the type of frames in messages. -/
def typeName : String := "WireMessage"

/-- A field that may not be left out. -/
def need {α : Type} (field : FrameField) : Option α → Except Mismatch α
  | some x => .ok x
  | none => .error (.missingField field.name)

/-- The frame of a kind with the given fields. -/
def build (s : FrameSlots) : FrameKind → Except Mismatch Frame
  | .hello => return .hello (← need .realm s.realm)
  | .welcome => return .welcome (← need .session s.session)
  | .abort => return .abort (← need .message s.message)
  | .call => do
    let request ← need .request s.request
    let procedure ← need .procedure s.procedure
    return .call request procedure (s.args.getD []) (s.kwargs.getD [])
  | .result => return .result (← need .request s.request) (s.args.getD []) (s.kwargs.getD [])
  | .error => do
    let request ← need .request s.request
    return .error request (← need .message s.message)
  | .register => do
    let request ← need .request s.request
    let pattern ← need .pattern s.pattern
    return .register request pattern (← need .mode s.mode)
  | .registered => do
    let request ← need .request s.request
    return .registered request (← need .registration s.registration)
  | .unregister => do
    let request ← need .request s.request
    return .unregister request (← need .registration s.registration)
  | .unregistered => return .unregistered (← need .request s.request)
  | .invocation => do
    let request ← need .request s.request
    let registration ← need .registration s.registration
    return .invocation request registration (s.addressed.getD none) (s.args.getD [])
      (s.kwargs.getD [])
  | .yield => return .yield (← need .request s.request) (s.args.getD []) (s.kwargs.getD [])

/-- Decodes one member of a frame of the given kind. -/
def assignMember (kind : FrameKind) (s : FrameSlots) (m : Json.Member) :
    Except Mismatch FrameSlots :=
  match kind.fields.find? (·.name == m.1) with
  | none => .ok s
  | some field =>
    if field.isRead s then .error (.duplicateField field.name) else field.read s m.2

/-- The frame of a kind whose members are given. -/
def ofMembers (kind : FrameKind) (members : List Json.Member) : Except Mismatch Frame := do
  let s ← members.foldlM (assignMember kind) {}
  build s kind

/-- The frame of a kind whose fields are listed. -/
def ofItems (kind : FrameKind) (items : List Json) : Except Mismatch Frame := do
  let s ← (kind.fields.zip items).foldlM (fun s (field, v) => field.read s v) {}
  if items.length < kind.required then
    .error (.invalidLength items.length (.variant typeName kind.title kind.fields.length))
  else if kind.fields.length < items.length then
    .error (.invalidLength items.length (.fields kind.fields.length))
  else build s kind

end Frame
end Switchboard
