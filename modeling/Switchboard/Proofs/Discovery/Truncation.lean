import Switchboard.Discovery.Listener
import Switchboard.Proofs.Discovery.Tracking
import Switchboard.Proofs.Domain.Grammar

/-!
# Datagrams that are cut

A socket hands over no more of a datagram than one byte beyond the limit of what is accepted. What
it leaves out decides nothing: the spare byte shows that the datagram is too long, whatever the
bytes in front of it say.

* `receive_take` compares what a tracker answers to a datagram and to what is handed over of it, and
  `after_cut` what it knows after any number of them.
* `receive_eq_settle` says the same of a listener.
* `verdict_of_truncate` puts this together for every size of the receive buffer.
-/

namespace Switchboard

namespace Heartbeat

/-- Errors of one kind. They say the same, but for the size of a datagram that is too long. -/
inductive Error.Alike : Error → Error → Prop
  | same (e : Error) : Alike e e
  | oversized (size size' max : Nat) : Alike (.oversized size max) (.oversized size' max)

/-- A datagram is refused for its size only if it is longer than any heartbeat. -/
lemma lt_length_of_oversized {datagram : List UInt8} {size max : Nat}
    (h : decode datagram = .error (.oversized size max)) : maxSize < datagram.length := by
  obtain ⟨info, haccepted⟩ | ⟨e, he, hfault⟩ := decode_settled datagram
  · rw [haccepted.decode_eq] at h
    exact absurd h (by simp)
  · obtain rfl := Except.error.inj (he.symm.trans h)
    cases hfault with
    | size hsize => exact hsize

end Heartbeat

namespace Tracker

/-- Answers to datagrams that are the same, or errors of one kind. -/
inductive Alike : (answer answer' : Except Heartbeat.Error (Option DomainInfo)) → Prop
  | event (event : Option DomainInfo) : Alike (.ok event) (.ok event)
  | refused {e e' : Heartbeat.Error} (h : e.Alike e') : Alike (.error e) (.error e')

lemma Alike.refl (answer : Except Heartbeat.Error (Option DomainInfo)) : Alike answer answer := by
  cases answer with
  | ok event => exact .event event
  | error e => exact .refused (.same e)

/-- A datagram that is too long is refused before it is read. -/
lemma receive_of_lt (t : Tracker) {datagram : List UInt8} {limit : Nat}
    (h : limit < datagram.length) :
    t.receive datagram limit = (.error (.oversized datagram.length limit), t) :=
  if_pos h

/-- One byte more than is accepted tells as much as the whole datagram. -/
theorem receive_take (t : Tracker) (datagram : List UInt8) (limit : Nat) :
    Alike (t.receive (datagram.take (limit + 1)) limit).1 (t.receive datagram limit).1 ∧
      (t.receive (datagram.take (limit + 1)) limit).2 = (t.receive datagram limit).2 := by
  by_cases hsize : limit < datagram.length
  · have hcut : limit < (datagram.take (limit + 1)).length := by
      rw [List.length_take]
      omega
    rw [receive_of_lt t hsize, receive_of_lt t hcut]
    exact ⟨.refused (.oversized ..), rfl⟩
  · have hwhole : datagram.take (limit + 1) = datagram := List.take_of_length_le (by omega)
    rw [hwhole]
    exact ⟨.refl _, rfl⟩

/-- If no heartbeat is longer than the limit, only the limit refuses a datagram for its size. -/
lemma receive_ne_oversized (t : Tracker) {datagram : List UInt8} {limit : Nat}
    (hlimit : limit ≤ Heartbeat.maxSize) (h : datagram.length ≤ limit) (size max : Nat) :
    (t.receive datagram limit).1 ≠ .error (.oversized size max) := by
  intro heq
  rw [receive, if_neg (Nat.not_lt.2 h)] at heq
  cases hdecode : Heartbeat.decode datagram with
  | ok info =>
    rw [hdecode] at heq
    exact absurd heq (by simp)
  | error e =>
    rw [hdecode] at heq
    rw [Except.error.inj heq] at hdecode
    have hlt := Heartbeat.lt_length_of_oversized hdecode
    omega

end Tracker

/-- An action of which a tracker gets no more than one byte beyond the limit. -/
def TrackerAction.cut : TrackerAction → TrackerAction
  | receive datagram limit => receive (datagram.take (limit + 1)) limit
  | forget name => forget name

namespace Tracker

/-- Cutting a datagram off does not change what the tracker knows. -/
lemma step_cut (t : Tracker) (a : TrackerAction) : (t.step a.cut).2 = (t.step a).2 := by
  cases a with
  | receive datagram limit => exact (t.receive_take datagram limit).2
  | forget name => rfl

/-- A tracker that gets all datagrams cut knows what one knows that gets them whole. -/
theorem after_cut (history : List TrackerAction) :
    after (history.map TrackerAction.cut) = after history := by
  induction history with
  | nil => rfl
  | cons a history ih => rw [List.map_cons, after, ih, step_cut, after]

end Tracker

namespace Listener

/-- A listener behind what its tracker made of a datagram: an event waits for room in the queue. -/
def settle (l : Listener) : Except Heartbeat.Error (Option DomainInfo) × Tracker → Listener
  | (.ok event, tracker) => { l with tracker, blocked := event }
  | (.error _, tracker) => { l with tracker }

lemma limit_le (buffer : Nat) : limit buffer ≤ Heartbeat.maxSize := Nat.min_le_right ..

/-- A listener does with a datagram what it would do if the socket handed over all of it. -/
theorem receive_eq_settle (l : Listener) (datagram : List UInt8) :
    l.receive datagram = l.settle (l.tracker.receive datagram (limit l.buffer)) := by
  obtain ⟨halike, htracker⟩ := l.tracker.receive_take datagram (limit l.buffer)
  rw [Listener.receive, truncate]
  generalize l.tracker.receive (datagram.take (limit l.buffer + 1)) (limit l.buffer) = cut at *
  generalize l.tracker.receive datagram (limit l.buffer) = whole at *
  obtain ⟨answer, tracker⟩ := cut
  obtain ⟨answer', tracker'⟩ := whole
  obtain rfl : tracker = tracker' := htracker
  -- a refused datagram leaves no trace of why it was refused
  cases halike <;> rfl

/-- Whatever the receive buffer, a tracker answers to what is handed over of a datagram as it would
answer to the whole: with the same event and the same knowledge, or with an error of the same kind.
Exactly the datagrams beyond the limit are refused for their size, and the decoder refuses none for
it. So it is after any number of datagrams, and of a listener with that tracker. -/
theorem verdict_of_truncate (t : Tracker) (buffer : Nat) (datagram : List UInt8) :
    Tracker.Alike (t.receive (truncate buffer datagram) (limit buffer)).1
      (t.receive datagram (limit buffer)).1 ∧
    (t.receive (truncate buffer datagram) (limit buffer)).2
      = (t.receive datagram (limit buffer)).2 ∧
    (limit buffer < datagram.length →
      t.receive (truncate buffer datagram) (limit buffer)
        = (.error (.oversized (limit buffer + 1) (limit buffer)), t)) ∧
    (datagram.length ≤ limit buffer → ∀ size max,
      (t.receive (truncate buffer datagram) (limit buffer)).1
        ≠ .error (.oversized size max)) ∧
    ((truncate buffer datagram).length ≤ limit buffer → ∀ size max,
      Heartbeat.decode (truncate buffer datagram) ≠ .error (.oversized size max)) ∧
    (∀ history : List TrackerAction,
      Tracker.after (history.map TrackerAction.cut) = Tracker.after history) ∧
    ∀ l : Listener, l.receive datagram
      = l.settle (l.tracker.receive datagram (limit l.buffer)) := by
  -- what is handed over is longer than the limit if the datagram is
  have hcut : (truncate buffer datagram).length = min (limit buffer + 1) datagram.length := by
    rw [truncate, List.length_take]
  have hlimit := limit_le buffer
  obtain ⟨halike, htracker⟩ := t.receive_take datagram (limit buffer)
  refine ⟨halike, htracker, fun h => ?_, fun h => ?_, fun h size max hdecode => ?_,
    Tracker.after_cut, fun l => l.receive_eq_settle datagram⟩
  · have hlength : (truncate buffer datagram).length = limit buffer + 1 := by omega
    rw [t.receive_of_lt (by omega), hlength]
  · exact t.receive_ne_oversized hlimit (by omega)
  · have hlt := Heartbeat.lt_length_of_oversized hdecode
    omega

/-- A heartbeat with a blank behind it, which is a heartbeat too, and more blanks. -/
def padded (blanks : Nat) : List UInt8 :=
  Heartbeat.bytes Heartbeat.announced ++ List.replicate blanks 32

/-- With a buffer that the heartbeat just fits into, it is accepted alone. With a blank behind it,
or with so many that it is cut behind the first, it is refused, although the decoder accepts what is
handed over. The longest heartbeat is accepted with any buffer that holds it. -/
theorem verdict_of_padded :
    ((({} : Tracker).receive (truncate 32 (padded 0)) (limit 32)).1
        = .ok (some Heartbeat.announced) ∧
      Heartbeat.decode (truncate 32 (padded 8)) = .ok Heartbeat.announced ∧
      ({} : Tracker).receive (truncate 32 (padded 1)) (limit 32)
        = (.error (.oversized 33 32), {}) ∧
      ({} : Tracker).receive (truncate 32 (padded 8)) (limit 32)
        = (.error (.oversized 33 32), {})) ∧
    (Heartbeat.bytes Heartbeat.longest).length = limit 1024 ∧
    ∀ size max, (({} : Tracker).receive (truncate 1024 (Heartbeat.bytes Heartbeat.longest))
      (limit 1024)).1 ≠ .error (.oversized size max) := by
  have hlength : (Heartbeat.bytes Heartbeat.announced).length = 32 := by decide +kernel
  have hpadded (blanks : Nat) : (padded blanks).length = 32 + blanks := by
    rw [padded, List.length_append, hlength, List.length_replicate]
  have hrefused (blanks : Nat) (h : 0 < blanks) :
      ({} : Tracker).receive (truncate 32 (padded blanks)) (limit 32)
        = (.error (.oversized 33 32), {}) := by
    have hlimit : limit 32 < (padded blanks).length := by
      rw [hpadded]
      exact Nat.lt_add_of_pos_right h
    exact (verdict_of_truncate {} 32 (padded blanks)).2.2.1 hlimit
  have hname : Heartbeat.longest.name.toList = List.replicate 159 '€' := String.toList_ofList
  have hlongest : (Heartbeat.bytes Heartbeat.longest).length = limit 1024 := by
    rw [Heartbeat.length_bytes_eq_size, Heartbeat.size, Heartbeat.compact, Json.writeString,
      Json.writeString, hname]
    decide +kernel
  have hdecode :
      (Heartbeat.decode (truncate 32 (padded 8))).toOption = some Heartbeat.announced := by
    decide +kernel
  have hevent : (({} : Tracker).receive (truncate 32 (padded 0)) (limit 32)).1.toOption
      = some (some Heartbeat.announced) := by
    decide +kernel
  refine ⟨⟨Json.ok_of_toOption hevent, Json.ok_of_toOption hdecode, hrefused 1 (by decide),
    hrefused 8 (by decide)⟩, hlongest, ?_⟩
  exact (verdict_of_truncate {} 1024 (Heartbeat.bytes Heartbeat.longest)).2.2.2.1
    (Nat.le_of_eq hlongest)

end Listener
end Switchboard
