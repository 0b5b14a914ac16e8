import Mathlib.Tactic.Lemma
import Switchboard.Session.Step

/-!
# What an action does to a session

* `Session.Change` lists what may become of a session by an action, with what has to hold for it,
  and `change_of_step` says that the list is complete. What actions preserve is shown case by case
  over the list.
* `Session.Dispatch` and `dispatch_cases` do the same for the frames that are read.
-/

namespace Switchboard
namespace Session

/-- An invocation whose answer has been sent on its way. -/
def tell (s : Session) (i : Nat) : Session := s.modifyGiven i fun g => { g with told := true }

/-- What becomes of a session by a frame that it reads. -/
inductive Dispatch (s : Session) (f : Frame) : Session → Prop
  | delivered {id : UInt64} {w : Waiter} {handlers : Table UInt64 HandlerId}
      (hid : f.replyTo = some id) (hw : s.pending.get? id = some w)
      (hhandlers : handlers = (s.deliver id f).handlers) :
    Dispatch s f
      { s.modifyRequest w.request fun r => { r with reply := .arrived f } with
        pending := s.pending.erase id
        handlers }
  | given {request registration : UInt64} {procedure : Option String} {args : Args}
      {kwargs : KwArgs} {handler : HandlerId}
      (hf : f = .invocation request registration procedure args kwargs)
      (hh : s.handlers.get? registration = some handler) :
    Dispatch s f
      { s with
        given := s.given ++
          [{ request, registration, handler, invocation := ⟨procedure, args, kwargs⟩ }] }
  | unhandled {request registration : UInt64} {procedure : Option String} {args : Args}
      {kwargs : KwArgs} (hf : f = .invocation request registration procedure args kwargs)
      (hh : s.handlers.get? registration = none) (hopen : s.isClosed = false)
      (hroom : s.hasRoom = true) : Dispatch s f (s.push (noHandler request registration))
  /-- Nobody waits for it, or nobody can be told. -/
  | ignored (hf : ∀ request registration procedure args kwargs,
      f = .invocation request registration procedure args kwargs →
        s.handlers.get? registration = none ∧ (s.isClosed = false → s.hasRoom = false)) :
    Dispatch s f s

/-- What becomes of a session by an action. -/
inductive Change (s : Session) : SessionAction → Session → Prop
  | begun (demand : Demand) : Change s (.begin demand) (s.begin demand)
  | checked {n : Nat} {r : Request} (hr : s.requests.get? n = some r) (hstage : r.stage = .entered)
      (hlost : s.lost = false) : Change s (.check n) (s.advance n .sending)
  | failed {n : Nat} {r : Request} (hr : s.requests.get? n = some r) (hstage : r.stage = .entered)
      (hlost : s.lost = true) : Change s (.check n) (s.failRequest n)
  | sent {n : Nat} {r : Request} (hr : s.requests.get? n = some r) (hstage : r.stage = .sending)
      (hopen : s.isClosed = false) (hroom : s.hasRoom = true) :
    Change s (.enqueue n) ((s.push (r.demand.frame (requestId n))).advance n .waiting)
  | refused {n : Nat} {r : Request} (hr : s.requests.get? n = some r) (hstage : r.stage = .sending)
      (hclosed : s.isClosed = true) : Change s (.enqueue n) (s.failRequest n)
  | collected {n : Nat} {r : Request} {f : Frame} (hr : s.requests.get? n = some r)
      (hstage : r.stage = .waiting) (hreply : r.reply = .arrived f) :
    Change s (.collect n) (s.advance n (.done (r.demand.kind.interpret f)))
  | forsaken {n : Nat} {r : Request} (hr : s.requests.get? n = some r)
      (hstage : r.stage = .waiting) (hreply : r.reply = .never) :
    Change s (.collect n) (s.advance n (.done (.failed .disconnected)))
  | ignored {text : List Char} (hreader : s.reader = .working) (hf : frameOf? text = none) :
    Change s (.read (.line text)) s
  | heard {text : List Char} {f : Frame} {s' : Session} (hreader : s.reader = .working)
      (hf : frameOf? text = some f) (hd : s.Dispatch f s') (hs' : s' = s.dispatch f) :
    Change s (.read (.line text)) s'
  | stopped {event : LineEvent} (hreader : s.reader = .working)
      (hevent : ∀ text, event ≠ .line text) : Change s (.read event) { s with reader := .ended }
  | completed {i : Nat} (reply : Reply) (hi : i < s.given.length) :
    Change s (.complete i reply) (s.modifyGiven i fun g => { g with slot := g.slot.answer reply })
  | dropped {i : Nat} (hi : i < s.given.length) :
    Change s (.drop i) (s.modifyGiven i fun g => { g with slot := g.slot.abandon })
  | answered {i : Nat} {g : Given} {f : Frame} (hg : s.given[i]? = some g) (ht : g.told = false)
      (hf : g.answer? = some f) (hopen : s.isClosed = false) (hroom : s.hasRoom = true) :
    Change s (.answer i) ((s.push f).tell i)
  /-- The queue takes no frames any more. -/
  | unanswered {i : Nat} {g : Given} {f : Frame} (hg : s.given[i]? = some g) (ht : g.told = false)
      (hf : g.answer? = some f) (hclosed : s.isClosed = true) : Change s (.answer i) (s.tell i)
  | wrote {f : Frame} {rest : List Frame} (hw : s.writer = .working) (hq : s.outbound = f :: rest) :
    Change s .write { s with outbound := rest, written := s.written ++ [f] }
  | unwritten {f : Frame} {rest : List Frame} (hw : s.writer = .working)
      (hq : s.outbound = f :: rest) :
    Change s .failWrite { s with outbound := rest, writer := .ended }
  | readerLost (hl : s.reader = .ended) :
    Change s (.announce .reader) { s with lost := true, reader := .announced }
  | writerLost (hl : s.writer = .ended) :
    Change s (.announce .writer) { s with lost := true, writer := .announced }
  | readerOver (hl : s.reader = .announced) :
    Change s (.giveUp .reader)
      { s with requests := s.cutReplies.requests, pending := ∅, reader := .over }
  /-- With the writer the queue goes too. -/
  | writerOver (hl : s.writer = .announced) :
    Change s (.giveUp .writer)
      { s with
        requests := s.cutReplies.requests
        pending := ∅
        outbound := []
        writer := .over }

variable {s s' : Session}

/-- A reply is delivered to its number. -/
lemma dispatch_deliver {f : Frame} {id : UInt64} (hid : f.replyTo = some id) :
    s.Dispatch f (s.deliver id f) := by
  cases hw : s.pending.get? id with
  | none =>
    have hsame : s.deliver id f = s := by simp only [deliver, hw]
    rw [hsame]
    refine .ignored fun _ _ _ _ _ hf => ?_
    rw [hf] at hid
    exact absurd hid (by simp [Frame.replyTo])
  | some w =>
    have hd := Dispatch.delivered hid hw rfl
    simp only [deliver, hw] at hd ⊢
    exact hd

/-- What a frame does is one of these. -/
theorem dispatch_cases (s : Session) (f : Frame) : s.Dispatch f (s.dispatch f) := by
  cases f with
  | result | error | registered | unregistered => exact dispatch_deliver rfl
  | invocation request registration procedure args kwargs =>
    simp only [dispatch, Frame.replyTo, invoke]
    cases hh : s.handlers.get? registration with
    | some handler => exact .given rfl hh
    | none =>
      cases hclosed : s.isClosed <;> cases hroom : s.hasRoom
      · exact .ignored fun _ _ _ _ _ he => by cases he; exact ⟨hh, fun _ => hroom⟩
      · exact .unhandled rfl hh hclosed hroom
      · exact .ignored fun _ _ _ _ _ he => by cases he; exact ⟨hh, fun _ => hroom⟩
      · exact .ignored fun _ _ _ _ _ he => by
          cases he
          exact ⟨hh, fun hopen => absurd (hopen.symm.trans hclosed) (by simp)⟩
  | _ => exact .ignored fun _ _ _ _ _ hf => absurd hf (by simp)

lemma change_of_check {n : Nat} (h : s.check n = some s') : s.Change (.check n) s' := by
  unfold check at h
  split at h
  · next hr =>
    rw [← Option.some.inj h]
    cases hlost : s.lost with
    | true => exact .failed hr rfl hlost
    | false => exact .checked hr rfl hlost
  · exact absurd h (by simp)

lemma change_of_enqueue {n : Nat} (h : s.enqueue n = some s') : s.Change (.enqueue n) s' := by
  unfold enqueue at h
  split at h
  · next demand reply hr =>
    split at h
    · next hclosed =>
      rw [← Option.some.inj h]
      exact .refused hr rfl hclosed
    · next hclosed =>
      split at h
      · next hroom =>
        rw [← Option.some.inj h]
        exact .sent hr rfl (by simpa using hclosed) hroom
      · exact absurd h (by simp)
  · exact absurd h (by simp)

lemma change_of_collect {n : Nat} (h : s.collect n = some s') : s.Change (.collect n) s' := by
  unfold collect at h
  split at h
  · next hr =>
    rw [← Option.some.inj h]
    exact .collected hr rfl rfl
  · next hr =>
    rw [← Option.some.inj h]
    exact .forsaken hr rfl rfl
  · exact absurd h (by simp)

lemma change_of_read {event : LineEvent} (h : s.read event = some s') :
    s.Change (.read event) s' := by
  unfold read at h
  split at h
  · exact absurd h (by simp)
  · next hreader =>
    have hworking : s.reader = .working := by simpa using hreader
    split at h
    · next text =>
      rw [← Option.some.inj h]
      cases hf : frameOf? text with
      | none => exact .ignored hworking hf
      | some f => exact .heard hworking hf (dispatch_cases s f) rfl
    · rw [← Option.some.inj h]
      exact .stopped hworking (by simp)
    · rw [← Option.some.inj h]
      exact .stopped hworking (by simp)

lemma change_of_answer {i : Nat} (h : s.answer i = some s') : s.Change (.answer i) s' := by
  unfold answer at h
  split at h
  · exact absurd h (by simp)
  · next g hg =>
    split at h
    · exact absurd h (by simp)
    · next ht =>
      rw [Bool.not_eq_true] at ht
      split at h
      · exact absurd h (by simp)
      · next f hf =>
        split at h
        · next hclosed =>
          rw [← Option.some.inj h]
          exact .unanswered hg ht hf hclosed
        · next hclosed =>
          split at h
          · next hroom =>
            rw [← Option.some.inj h]
            exact .answered hg ht hf (by simpa using hclosed) hroom
          · exact absurd h (by simp)

/-- Giving up the waiting requests changes nothing else. -/
lemma cutReplies_eq (s : Session) :
    s.cutReplies = { s with requests := s.cutReplies.requests } := by
  unfold cutReplies
  generalize s.pending.values = ws
  induction ws generalizing s with
  | nil => rfl
  | cons w rest ih =>
    rw [List.foldl_cons, ih]
    rfl

lemma change_of_giveUp {l : SessionLoop} (h : s.giveUp l = some s') :
    s.Change (.giveUp l) s' := by
  unfold giveUp at h
  split at h
  · exact absurd h (by simp)
  · next hstage =>
    rw [ne_eq, Decidable.not_not] at hstage
    rw [← Option.some.inj h, cutReplies_eq s]
    cases l
    · exact .readerOver hstage
    · exact .writerOver hstage

/-- Every action is one of the changes. -/
theorem change_of_step {a : SessionAction} (h : s.step a = some s') : s.Change a s' := by
  cases a with
  | begin demand =>
    rw [← Option.some.inj h]
    exact .begun demand
  | check n => exact change_of_check h
  | enqueue n => exact change_of_enqueue h
  | collect n => exact change_of_collect h
  | read event => exact change_of_read h
  | complete i reply =>
    simp only [step] at h
    split at h
    · next hi =>
      rw [← Option.some.inj h]
      exact .completed reply hi
    · exact absurd h (by simp)
  | drop i =>
    simp only [step] at h
    split at h
    · next hi =>
      rw [← Option.some.inj h]
      exact .dropped hi
    · exact absurd h (by simp)
  | answer i => exact change_of_answer h
  | write =>
    simp only [step, write] at h
    split at h
    · next hw hq =>
      rw [← Option.some.inj h]
      exact .wrote hw hq
    · exact absurd h (by simp)
  | failWrite =>
    simp only [step, failWrite] at h
    split at h
    · next hw hq =>
      rw [← Option.some.inj h]
      exact .unwritten hw hq
    · exact absurd h (by simp)
  | announce l =>
    simp only [step, announce] at h
    split at h
    · next hstage =>
      rw [← Option.some.inj h]
      cases l
      · exact .readerLost hstage
      · exact .writerLost hstage
    · exact absurd h (by simp)
  | giveUp l => exact change_of_giveUp h

end Session
end Switchboard
