import Switchboard.Text.Blank
import Switchboard.Text.Utf8
import Switchboard.Frame.Reader

/-!
# Lines of a stream

What arrives is cut into lines at line feeds; a carriage return in front of a line feed belongs to
it. When the stream has ended, what is left is a line too.

* `Inbound.next?` takes the next line from what has arrived.
* `framesOf` is what a session makes of a whole stream: blank lines and lines that hold no frame are
  left out.
-/

namespace Switchboard

/-- What a stream delivers next. -/
inductive LineEvent
  | line (text : List Char)
  /-- A line that is no UTF-8. -/
  | damaged
  /-- There are no more lines. -/
  | ended
deriving DecidableEq, Repr

namespace Lines

/-- The byte that ends a line. -/
def lineFeed : UInt8 := 10

/-- The byte that may stand before it. -/
def carriageReturn : UInt8 := 13

/-- Cuts off the first line, without its line feed, if one has ended. -/
def cut? (bytes : List UInt8) : Option (List UInt8 × List UInt8) :=
  match bytes.dropWhile (· ≠ lineFeed) with
  | [] => none
  | _ :: rest => some (bytes.takeWhile (· ≠ lineFeed), rest)

/-- What is cut off is shorter by the line feed at least. -/
theorem length_lt_of_cut? {bytes line rest : List UInt8} (h : cut? bytes = some (line, rest)) :
    rest.length < bytes.length := by
  have hle := (List.dropWhile_suffix (l := bytes) (· ≠ lineFeed)).length_le
  unfold cut? at h
  split at h
  · exact absurd h (by simp)
  · next r e =>
    simp only [Option.some.injEq, Prod.mk.injEq] at h
    rw [e, h.2] at hle
    exact hle

/-- The line without a carriage return at its end. -/
def trimReturn (line : List UInt8) : List UInt8 :=
  if line.getLast? = some carriageReturn then line.dropLast else line

/-- A line as it is delivered. -/
def event (line : List UInt8) : LineEvent := (Utf8.decode line).elim .damaged .line

/-- The lines of a whole stream, without what ends them. -/
def split (bytes : List UInt8) : List (List UInt8) :=
  match _h : cut? bytes with
  | some (line, rest) => trimReturn line :: split rest
  | none => if bytes = [] then [] else [bytes]
termination_by bytes.length
decreasing_by exact length_lt_of_cut? _h

end Lines

/-- What has arrived of a stream and has not been taken yet. -/
structure Inbound where
  bytes : List UInt8 := []
  /-- Whether the stream has ended. -/
  ended : Bool := false
deriving DecidableEq, Repr

namespace Inbound

/-- Bytes arrive. Nothing arrives behind the end. -/
def feed (s : Inbound) (bytes : List UInt8) : Inbound :=
  if s.ended then s else { s with bytes := s.bytes ++ bytes }

/-- The stream ends. -/
def close (s : Inbound) : Inbound := { s with ended := true }

/-- Takes the next line, if it is all there. -/
def next? (s : Inbound) : Option (LineEvent × Inbound) :=
  match Lines.cut? s.bytes with
  | some (line, rest) => some (Lines.event (Lines.trimReturn line), { s with bytes := rest })
  | none =>
    if !s.ended then none
    else if s.bytes = [] then some (.ended, s)
    else some (Lines.event s.bytes, { s with bytes := [] })

end Inbound

/-- The frame that a line holds, if it holds one. -/
def frameOf? (line : List Char) : Option Frame :=
  if Blank.isBlankLine line then none else (Frame.parse (String.ofList line)).toOption

/-- The frames of a whole stream, up to the first line that is no UTF-8. -/
def framesOf (bytes : List UInt8) : List Frame :=
  let lines := (Lines.split bytes).map Utf8.decode
  (lines.takeWhile Option.isSome).filterMap (·.bind frameOf?)

end Switchboard
