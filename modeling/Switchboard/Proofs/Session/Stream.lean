import Switchboard.Proofs.Json.Graphic
import Switchboard.Proofs.Session.Invocations
import Switchboard.Proofs.Session.Lines

/-!
# Frames on a stream

A frame is written on one line, whatever its strings hold, so that the lines of a stream are its
frames. Lines that hold no frame may stand anywhere between them.

* `Frame.Plain` is a frame that is read from its own text.
* `IsIdle` is a line that a session passes over, and `Interleaves` says that a stream consists of
  frames and such lines.
* `Delimited` is what follows for the bytes of the stream and for the session that reads them, and
  `delimited_of_plain` says it of all plain frames.
-/

namespace Switchboard

namespace Frame

/-- A frame without floats that nests no deeper than a reader admits. -/
structure Plain (f : Frame) : Prop where
  lawful : f.Lawful
  floatFree : f.FloatFree
  depth_le : f.toJson.depth ≤ Json.maxDepth

/-- The bytes of a frame as they are put on a connection. -/
def bytes (f : Frame) : List UInt8 := Utf8.encode f.line

/-! ## The line of a frame -/

/-- The numbers of a plain frame are exact. -/
lemma Plain.exact {f : Frame} (h : f.Plain) : ∀ n ∈ f.toJson.numbers, n.Exact :=
  exact_of_floatFree h.lawful h.floatFree

/-- There is no line feed within a plain frame. -/
lemma Plain.lineFeed_not_mem {f : Frame} (h : f.Plain) : '\n' ∉ f.toJson.write :=
  (Json.isGraphic_write f.toJson h.exact).lineFeed_not_mem

/-- A frame ends with a brace, so that nothing is taken from its end. -/
lemma getLast?_write (f : Frame) : f.toJson.write.getLast? = some '\x7d' := by
  rw [toJson, Json.write, List.getLast?_cons, List.getLast?_concat]
  rfl

/-- The text of a frame has no carriage return that belongs to a line. -/
lemma withoutReturn_write (f : Frame) : Lines.withoutReturn f.toJson.write = f.toJson.write := by
  refine Lines.withoutReturn_of_ne ?_
  rw [getLast?_write]
  decide

/-- The line of a frame holds the frame. -/
lemma Plain.frameOf?_write {f : Frame} (h : f.Plain) : frameOf? f.toJson.write = some f := by
  have htext : f.text.toList = f.toJson.write := String.toList_ofList
  rw [← htext]
  exact Session.frameOf?_text h.lawful.areNormal h.depth_le h.exact

end Frame

/-! ## Frames and idle lines -/

/-- A line that holds no frame: one with only blank characters, or one that is no frame without the
carriage return at its end. -/
structure IsIdle (text : List Char) : Prop where
  whole : '\n' ∉ text
  idle : Blank.isBlankLine text = true ∨
    ∃ error, Frame.parse (String.ofList (Lines.withoutReturn text)) = .error error

/-- A carriage return at its end does not make a line less blank. -/
lemma isBlankLine_withoutReturn (text : List Char) :
    Blank.isBlankLine (Lines.withoutReturn text) = Blank.isBlankLine text := by
  unfold Lines.withoutReturn
  split
  · next h =>
    obtain ⟨init, rfl⟩ := List.getLast?_eq_some_iff.1 h
    have hreturn : Blank.isBlank '\r' = true := by decide
    rw [List.dropLast_concat, Blank.isBlankLine, Blank.isBlankLine, List.all_append, List.all_cons,
      List.all_nil, hreturn, Bool.and_true, Bool.and_true]
  · rfl

/-- Idle lines are those that hold no frame. -/
lemma isIdle_iff {text : List Char} :
    IsIdle text ↔ '\n' ∉ text ∧ frameOf? (Lines.withoutReturn text) = none := by
  have hidle : frameOf? (Lines.withoutReturn text) = none ↔ Blank.isBlankLine text = true ∨
      ∃ error, Frame.parse (String.ofList (Lines.withoutReturn text)) = .error error := by
    rw [frameOf?, isBlankLine_withoutReturn]
    cases Blank.isBlankLine text <;>
      cases Frame.parse (String.ofList (Lines.withoutReturn text)) <;> simp [Except.toOption]
  rw [hidle]
  exact ⟨fun h => ⟨h.whole, h.idle⟩, fun h => ⟨h.1, h.2⟩⟩

/-- What stands on a stream: a frame, or a line without one. -/
inductive Piece
  | frame (f : Frame)
  | idle (text : List Char)

namespace Piece

/-- The frame, if it is one. -/
def frame? : Piece → Option Frame
  | frame f => some f
  | idle _ => none

/-- The line without its line feed. -/
def text : Piece → List Char
  | frame f => f.toJson.write
  | idle text => text

/-- The bytes of the line. -/
def bytes : Piece → List UInt8
  | frame f => f.bytes
  | idle text => Utf8.encode (text ++ ['\n'])

end Piece

/-- The pieces are the frames in their order, with idle lines anywhere between them. -/
structure Interleaves (pieces : List Piece) (frames : List Frame) : Prop where
  frames : pieces.filterMap Piece.frame? = frames
  idle : ∀ text, .idle text ∈ pieces → IsIdle text

/-- Frames may stand alone. -/
lemma interleaves_map_frame (frames : List Frame) : Interleaves (frames.map .frame) frames where
  frames := by
    rw [List.filterMap_map]
    exact List.filterMap_some
  idle := by simp

/-- The bytes of pieces are those of their lines. -/
lemma stream_texts (pieces : List Piece) :
    Lines.stream (pieces.map Piece.text) = pieces.flatMap Piece.bytes := by
  rw [Lines.stream, List.flatMap_map]
  refine List.flatMap_congr fun p _ => ?_
  cases p <;> rfl

variable {pieces : List Piece} {frames : List Frame}

namespace Interleaves

/-- Among pieces that interleave plain frames, every frame is plain. -/
lemma plain (h : Interleaves pieces frames) (hplain : ∀ f ∈ frames, f.Plain) {f : Frame}
    (hf : .frame f ∈ pieces) : f.Plain := by
  refine hplain f ?_
  rw [← h.frames]
  exact List.mem_filterMap.2 ⟨.frame f, hf, rfl⟩

/-- No piece has a line feed within. -/
lemma lineFeed_not_mem (h : Interleaves pieces frames) (hplain : ∀ f ∈ frames, f.Plain) :
    ∀ text ∈ pieces.map Piece.text, '\n' ∉ text := by
  intro text htext
  obtain ⟨p, hp, rfl⟩ := List.mem_map.1 htext
  cases p with
  | frame f => exact (h.plain hplain hp).lineFeed_not_mem
  | idle text => exact (h.idle text hp).whole

/-- The lines of a stream hold its frames and no others. -/
lemma filterMap_frameOf? (h : Interleaves pieces frames) (hplain : ∀ f ∈ frames, f.Plain) :
    (pieces.map Piece.text).filterMap (fun text => frameOf? (Lines.withoutReturn text))
      = frames := by
  rw [List.filterMap_map]
  refine Eq.trans (List.filterMap_congr fun p hp => ?_) h.frames
  cases p with
  | frame f =>
    change frameOf? (Lines.withoutReturn f.toJson.write) = some f
    rw [Frame.withoutReturn_write, (h.plain hplain hp).frameOf?_write]
  | idle text => exact (isIdle_iff.1 (h.idle text hp)).2

/-- The frames are read from the bytes of the pieces, in their order. -/
lemma framesOf_bytes (h : Interleaves pieces frames) (hplain : ∀ f ∈ frames, f.Plain) :
    framesOf (pieces.flatMap Piece.bytes) = frames := by
  rw [← stream_texts, Lines.framesOf_lines (h.lineFeed_not_mem hplain), h.filterMap_frameOf? hplain]

end Interleaves

/-! ## The session that reads them -/

namespace Session

/-- A frame does not end the reading loop. -/
lemma reader_dispatch (s : Session) (f : Frame) : (s.dispatch f).reader = s.reader := by
  have hd := dispatch_cases s f
  generalize s.dispatch f = t at hd ⊢
  cases hd <;> rfl

/-- A session that reads lines does what their frames do, one after the other. -/
lemma run_read (texts : List (List Char)) {s : Session} (hs : s.reader = .working) :
    s.run (texts.map fun text => .read (.line text))
      = (texts.filterMap frameOf?).foldl dispatch s := by
  induction texts generalizing s with
  | nil => rfl
  | cons text texts ih =>
    have hread : s.step (.read (.line text)) = some ((frameOf? text).elim s s.dispatch) := by
      simp [step, read, hs]
    have hrun : s.run ((text :: texts).map fun text => .read (.line text))
        = ((frameOf? text).elim s s.dispatch).run (texts.map fun text => .read (.line text)) := by
      rw [List.map_cons, run, List.foldl_cons, hread]
      rfl
    rw [hrun, List.filterMap_cons]
    cases frameOf? text with
    | none => exact ih hs
    | some f => exact ih ((reader_dispatch s f).trans hs)

end Session

/-! ## The whole -/

/-- What holds of frames that are put on a stream. -/
structure Delimited (frames : List Frame) : Prop where
  /-- There are as many line feeds among their bytes as there are frames. -/
  count : (frames.flatMap Frame.bytes).count Lines.lineFeed = frames.length
  /-- They are read from their bytes. -/
  read : framesOf (frames.flatMap Frame.bytes) = frames
  /-- Idle lines between them change nothing of this. -/
  idle : ∀ pieces, Interleaves pieces frames → framesOf (pieces.flatMap Piece.bytes) = frames
  /-- The lines can be taken one after the other, whatever is behind them, and a session that reads
  them does what the frames do. -/
  taken : ∀ pieces, Interleaves pieces frames → ∀ rest ended, ∃ events,
    Inbound.Takes ⟨pieces.flatMap Piece.bytes ++ rest, ended⟩ events ⟨rest, ended⟩ ∧
      ∀ s : Session, s.reader = .working →
        s.run (events.map .read) = frames.foldl Session.dispatch s

/-- Frames without floats that nest no deeper than a reader admits delimit themselves: each is one
line, and they are read from the stream in their order, also where idle lines stand between
them. -/
theorem delimited_of_plain (hplain : ∀ f ∈ frames, f.Plain) : Delimited frames := by
  have hown := interleaves_map_frame frames
  have hbytes : (frames.map Piece.frame).flatMap Piece.bytes = frames.flatMap Frame.bytes :=
    List.flatMap_map ..
  refine
    { count := ?_
      read := ?_
      idle := fun pieces h => h.framesOf_bytes hplain
      taken := fun pieces h rest ended => ?_ }
  · rw [← hbytes, ← stream_texts, Lines.count_stream (hown.lineFeed_not_mem hplain),
      List.length_map, List.length_map]
  · rw [← hbytes]
    exact hown.framesOf_bytes hplain
  · let lines := (pieces.map Piece.text).map Lines.withoutReturn
    refine ⟨lines.map .line, ?_, fun s hs => ?_⟩
    · rw [← stream_texts, List.map_map]
      exact Inbound.takes_lines (h.lineFeed_not_mem hplain) rest ended
    · have hframes : lines.filterMap frameOf? = frames := by
        rw [List.filterMap_map]
        exact h.filterMap_frameOf? hplain
      rw [List.map_map]
      exact (Session.run_read lines hs).trans (by rw [hframes])

/-- Two frames, the first with a line feed and a carriage return in its strings, behind an empty
line, with one between them that is no frame and ends with a carriage return. -/
def interspersed : List Piece :=
  [.idle [], .frame (.error 7 "a\nb\r"), .idle "\x7bbad\x7d\r".toList,
    .frame (.result 8 [.str "\r\n"] [])]

/-- Two frames are recovered from between a blank line and one that cannot be read. -/
theorem delimited_of_interspersed :
    Delimited [.error 7 "a\nb\r", .result 8 [.str "\r\n"] []] ∧
      framesOf (interspersed.flatMap Piece.bytes)
        = [.error 7 "a\nb\r", .result 8 [.str "\r\n"] []] ∧
      (interspersed.flatMap Piece.bytes).count Lines.lineFeed = 4 := by
  have herror : Frame.Plain (.error 7 "a\nb\r") :=
    ⟨⟨⟨trivial, trivial, trivial⟩, by decide⟩,
      by simp [Frame.FloatFree, Frame.toJson, Frame.members, Frame.word, Json.numbers,
        Json.numbersMembers], by decide⟩
  have hresult : Frame.Plain (.result 8 [.str "\r\n"] []) :=
    ⟨⟨⟨trivial, ⟨trivial, trivial⟩, ⟨.nil, trivial⟩, trivial⟩, by decide⟩,
      by simp [Frame.FloatFree, Frame.toJson, Frame.members, Frame.word, Json.numbers,
        Json.numbersMembers, Json.numbersItems], by decide⟩
  have hdelimited : Delimited [.error 7 "a\nb\r", .result 8 [.str "\r\n"] []] :=
    delimited_of_plain (by simp [herror, hresult])
  have hbad : IsIdle "\x7bbad\x7d\r".toList :=
    isIdle_iff.2 (by decide +kernel)
  have hinterleaves : Interleaves interspersed [.error 7 "a\nb\r", .result 8 [.str "\r\n"] []] :=
    ⟨rfl, by simpa [interspersed] using ⟨isIdle_iff.2 (by decide +kernel), hbad⟩⟩
  exact ⟨hdelimited, hdelimited.idle _ hinterleaves, by decide +kernel⟩

end Switchboard
