import Mathlib.Logic.Equiv.Fin.Basic
import Switchboard.Proofs.Frame.RoundTrip
import Switchboard.Proofs.Session.Answers
import Switchboard.Proofs.Session.Rest
import Switchboard.Proofs.Store.History

/-!
# Every invocation and its answer

An invocation that comes in is given to a handler, or answered at once that there is none. The
answer of a handler waits until the queue has room; the one that there is no handler does not, and
is left out when the queue is full.

* `Session.Past` is all that has happened in a session since it was opened.
* `Session.received` and `Session.missed` count the invocations of a number that came in, and those
  that were left without an answer because no handler took them while the queue was full.
* `balance_of_step` says for one action that each invocation is answered, owed an answer or missed;
  `balance_of_past` says it for all that has happened.
* `Session.Drained` is a session whose queue is empty and where no answer waits for room;
  `exists_past_atRest` leads to one by what the session does on its own.
* `answered_of_past` counts the answers that have been written then, and `unanswered_of_flood` is
  how an invocation comes to be missed.
-/

namespace Switchboard

/-- Whether the action reads an invocation of the number `r`. -/
def SessionAction.hears (r : UInt64) : SessionAction → Bool
  | .read (.line text) => (frameOf? text).bind Frame.invokes? = some r
  | _ => false

/-- How many answers are still to be sent under the number `r` for what a handler has been given. -/
def Given.owed (r : UInt64) (g : Given) : Nat := if g.request = r ∧ g.told = false then 1 else 0

namespace Session

/-- All that has happened since a session was opened. -/
abbrev Past : List (Session × SessionAction) → Session → Prop := History step {}

/-- What happens in a session by the actions of a list. -/
abbrev trail (s : Session) (actions : List SessionAction) : List (Session × SessionAction) :=
  History.trail step s actions

lemma past_trail (actions : List SessionAction) : Past (trail {} actions) (run {} actions) :=
  History.of_run step {} actions

/-- Whether the action reads an invocation of the number `r` that has no handler while the queue is
full. -/
def misses (s : Session) (r : UInt64) : SessionAction → Bool
  | .read (.line text) =>
    match frameOf? text with
    | some (.invocation request registration _ _ _) =>
      request = r && (s.handlers.get? registration).isNone && !s.hasRoom
    | _ => false
  | _ => false

/-- How many invocations of the number `r` have come in. -/
def received (l : List (Session × SessionAction)) (r : UInt64) : Nat :=
  l.countP fun p => p.2.hears r

/-- How many invocations of the number `r` have come in while the queue was full, without a handler
to take them. -/
def missed (l : List (Session × SessionAction)) (r : UInt64) : Nat :=
  l.countP fun p => p.1.misses r p.2

/-- How many answers under the number `r` handlers have not given yet, or wait for room. -/
def owed (s : Session) (r : UInt64) : Nat := (s.given.map (Given.owed r)).sum

variable {s s' : Session} {a : SessionAction} {l : List (Session × SessionAction)} {r : UInt64}

/-! ## One action -/

lemma owed_modifyGiven {i : Nat} {g : Given} (hg : s.given[i]? = some g) (f : Given → Given) :
    (s.modifyGiven i f).owed r + g.owed r = s.owed r + (f g).owed r :=
  sum_modifyGiven hg f (Given.owed r)

/-- What a handler says to an invocation does not change what is owed. -/
lemma owed_of_reply {i : Nat} (hi : i < s.given.length) (f : ReplySlot → ReplySlot) :
    (s.modifyGiven i fun g => { g with slot := f g.slot }).owed r = s.owed r := by
  have h := owed_modifyGiven (r := r) (List.getElem?_eq_getElem hi)
    fun g => { g with slot := f g.slot }
  exact Nat.add_right_cancel h

/-- An answer that is told is not owed any more. -/
lemma owed_tell {i : Nat} {g : Given} (hg : s.given[i]? = some g) (ht : g.told = false) :
    (s.tell i).owed r + (if g.request = r then 1 else 0) = s.owed r := by
  have h := owed_modifyGiven (r := r) hg fun g => { g with told := true }
  have hold : g.owed r = if g.request = r then 1 else 0 := by simp [Given.owed, ht]
  have hnew : ({ g with told := true } : Given).owed r = 0 := by simp [Given.owed]
  rw [hold, hnew] at h
  exact h

/-- The frames of an action that answer invocations of the number `r`. -/
def answers (s : Session) (a : SessionAction) (r : UInt64) : List Frame :=
  (s.pushes a).filter fun f => f.tells? = some r

/-- While the writer works nothing is lost of what has joined the queue. -/
lemma queued_of_working (hs : s.step a = some s') (hw : s'.writer = .working) :
    s'.queued = s.queued ++ s.pushes a ∧ s.writer = .working := by
  obtain ⟨hq, hworking⟩ | ⟨hnot, -⟩ := extended_of_step hs
  · exact ⟨hq, hworking hw⟩
  · exact absurd hw hnot

/-- While the writing loop works, the connection takes frames. -/
lemma isClosed_of_working (hw : s.writer = .working) : s.isClosed = false := by
  rw [isClosed, hw]
  rfl

/-- An action that neither reads an invocation nor says anything about one. -/
lemma balance_of_quiet (hanswers : s.answers a r = []) (howed : s'.owed r = s.owed r)
    (hmisses : s.misses r a = false) (hhears : a.hears r = false) :
    (s.answers a r).length + s'.owed r + (s.misses r a).toNat
      = s.owed r + (a.hears r).toNat := by
  rw [hanswers, howed, hmisses, hhears, List.length_nil, Nat.zero_add]

lemma tells?_noHandler (request registration : UInt64) :
    (noHandler request registration).tells? = some request := rfl

/-- An invocation is heard under its request. -/
lemma hears_of_invocation {text : List Char} {request registration : UInt64}
    {procedure : Option String} {args : Args} {kwargs : KwArgs}
    (hf : frameOf? text = some (.invocation request registration procedure args kwargs)) :
    SessionAction.hears r (.read (.line text)) = decide (request = r) := by
  simp [SessionAction.hears, hf, Frame.invokes?]

/-- A frame that is read is no invocation, or one that is answered, owed an answer or missed. -/
lemma balance_of_dispatch {text : List Char} {f : Frame} (hf : frameOf? text = some f)
    (hopen : s.isClosed = false) (hd : s.Dispatch f s') :
    (s.answers (.read (.line text)) r).length + s'.owed r
        + (s.misses r (.read (.line text))).toNat
      = s.owed r + (SessionAction.hears r (.read (.line text))).toNat := by
  cases f with
  | invocation request registration procedure args kwargs =>
    rw [hears_of_invocation hf]
    cases hd with
    | delivered hid => exact absurd hid (by simp [Frame.replyTo])
    | @given _ _ _ _ _ handler hinvoke hh =>
      obtain ⟨rfl, rfl, rfl, rfl, rfl⟩ := Frame.invocation.inj hinvoke
      have hpushes : s.pushes (.read (.line text)) = [] := by simp [pushes, hf, hh]
      have hmisses : s.misses r (.read (.line text)) = false := by simp [misses, hf, hh]
      rw [answers, hpushes, hmisses]
      simp [owed, Given.owed, Bool.toNat]
    | unhandled hinvoke hh _ hroom =>
      obtain ⟨rfl, rfl, rfl, rfl, rfl⟩ := Frame.invocation.inj hinvoke
      have hpushes : s.pushes (.read (.line text)) = [noHandler request registration] := by
        simp [pushes, hf, hh, hopen, hroom]
      have hmisses : s.misses r (.read (.line text)) = false := by simp [misses, hf, hroom]
      have howed : (s.push (noHandler request registration)).owed r = s.owed r := rfl
      rw [answers, hpushes, hmisses, howed, List.filter_cons, List.filter_nil, tells?_noHandler]
      by_cases hr : request = r <;> simp [hr, Nat.add_comm]
    | ignored hignored =>
      -- without a handler and without room nothing is said
      obtain ⟨hh, hfull⟩ := hignored _ _ _ _ _ rfl
      have hroom := hfull hopen
      have hpushes : s.pushes (.read (.line text)) = [] := by simp [pushes, hf, hroom]
      have hmisses : s.misses r (.read (.line text)) = decide (request = r) := by
        simp [misses, hf, hh, hroom]
      rw [answers, hpushes, hmisses, List.filter_nil, List.length_nil, Nat.zero_add]
  | _ =>
    have hpushes : s.pushes (.read (.line text)) = [] := by simp [pushes, hf]
    have howed : s'.owed r = s.owed r := by
      cases hd with
      | given hinvoke | unhandled hinvoke => exact absurd hinvoke (by simp)
      | _ => rfl
    refine balance_of_quiet ?_ howed ?_ ?_
    · rw [answers, hpushes, List.filter_nil]
    · simp [misses, hf]
    · simp [SessionAction.hears, hf, Frame.invokes?]

/-- An invocation that is read is answered, owed an answer or missed; and an answer that joins the
queue is owed no longer. -/
theorem balance_of_step (hs : s.step a = some s') (hw : s'.writer = .working) :
    (s.answers a r).length + s'.owed r + (s.misses r a).toNat = s.owed r + (a.hears r).toNat := by
  -- a frame is missed only when the channel is full, since it is open
  have hopen := isClosed_of_working (queued_of_working hs hw).2
  cases change_of_step hs with
  | begun demand =>
    have hgiven : (s.begin demand).given = s.given := given_forsake s _
    exact balance_of_quiet rfl (by rw [owed, owed, hgiven]) rfl rfl
  | checked | collected | forsaken | wrote | readerLost | readerOver =>
    exact balance_of_quiet rfl rfl rfl rfl
  | @failed n =>
    have hgiven : (s.failRequest n).given = s.given := given_forsake s _
    exact balance_of_quiet rfl (by rw [owed, owed, hgiven]) rfl rfl
  | sent hr hstage =>
    refine balance_of_quiet ?_ rfl rfl rfl
    rw [answers, pushes_enqueue hr hstage, hopen]
    simp [Demand.tells?_frame]
  | refused _ _ hclosed | unanswered _ _ _ hclosed =>
    exact absurd (hopen.symm.trans hclosed) (by simp)
  | ignored _ hf =>
    refine balance_of_quiet ?_ rfl ?_ ?_
    · simp [answers, pushes, hf]
    · simp [misses, hf]
    · simp [SessionAction.hears, hf]
  | heard _ hf hd => exact balance_of_dispatch hf hopen hd
  | @stopped event _ hevent =>
    cases event with
    | line text => exact absurd rfl (hevent text)
    | damaged | ended => exact balance_of_quiet rfl rfl rfl rfl
  | completed reply hi => exact balance_of_quiet rfl (owed_of_reply hi _) rfl rfl
  | dropped hi => exact balance_of_quiet rfl (owed_of_reply hi _) rfl rfl
  | @answered i g f hg ht hf =>
    have htells := (Given.answer?_tells hf).1
    have howed : ((s.push f).tell i).owed r + (if g.request = r then 1 else 0) = s.owed r :=
      owed_tell (s := s.push f) hg ht
    have hanswers : (s.answers (.answer i) r).length = if g.request = r then 1 else 0 := by
      rw [answers, pushes_answer hg hf, hopen, if_neg (by simp), List.filter_cons, List.filter_nil,
        htells]
      by_cases hr : g.request = r <;> simp [hr]
    have hmisses : s.misses r (.answer i) = false := rfl
    have hhears : SessionAction.hears r (.answer i) = false := rfl
    rw [hanswers, hmisses, hhears, ← howed, Nat.add_comm (if g.request = r then 1 else 0)]
  | unwritten | writerLost | writerOver => exact absurd hw (by simp)

/-! ## All that has happened -/

/-- Every invocation that has come in has been answered, is owed an answer or has been missed, as
long as the writer works. -/
theorem balance_of_past (h : Past l s) (hw : s.writer = .working) :
    (s.told r).length + s.owed r + missed l r = received l r := by
  induction h with
  | started => rfl
  | @step l s s' a h hs ih =>
    obtain ⟨hq, hworking⟩ := queued_of_working hs hw
    have hstep := balance_of_step (r := r) hs hw
    have hbefore := ih hworking
    have htold : (s'.told r).length = (s.told r).length + (s.answers a r).length := by
      rw [told, hq, List.filter_append, List.length_append]
      rfl
    -- each of the counts grows by what the last action adds to it
    have hmissed : missed ((s, a) :: l) r = missed l r + (s.misses r a).toNat := by
      rw [missed, List.countP_cons]
      cases s.misses r a <;> rfl
    have hreceived : received ((s, a) :: l) r = received l r + (a.hears r).toNat := by
      rw [received, List.countP_cons]
      cases a.hears r <;> rfl
    omega

lemma sound_of_past (h : Past l s) : s.Sound := by
  induction h with
  | started => exact sound_empty
  | step _ hs ih => exact ih.step hs

/-! ## When the queue has drained -/

/-- The queue is empty, and no answer waits for room in it. -/
def Drained (s : Session) : Prop := s.outbound = [] ∧ ∀ i, s.step (.answer i) = none

/-- What a handler has answered has been told, since there is room to tell it. -/
theorem Drained.told_of_answered (h : s.Drained) (hw : s.writer = .working) {i : Nat} {g : Given}
    (hg : s.given[i]? = some g) (hslot : g.slot.isWaiting = false) : g.told = true := by
  by_contra hnot
  have ht : g.told = false := by simpa using hnot
  obtain ⟨f, hf⟩ := Given.answer?_of_not_waiting hslot
  have hroom : s.hasRoom = true := by
    rw [hasRoom, h.1]
    rfl
  have hstep := h.2 i
  simp only [step, answer, hg, ht, hf, isClosed_of_working hw, hroom, Bool.false_eq_true, if_false,
    if_true] at hstep
  exact absurd hstep (by simp)

/-- A drained session owes no answers to calls that have finished. -/
lemma Drained.owed_eq_zero (h : s.Drained) (hw : s.writer = .working)
    (hdone : ∀ g ∈ s.given, g.request = r → g.slot.isWaiting = false) : s.owed r = 0 := by
  have hnone : ∀ g ∈ s.given, g.owed r = 0 := by
    intro g hg
    obtain ⟨i, hi⟩ := List.getElem?_of_mem hg
    refine if_neg fun hr => ?_
    have ht := h.told_of_answered hw hi (hdone g hg hr.1)
    exact absurd (hr.2.symm.trans ht) (by simp)
  refine List.sum_eq_zero_iff_forall_eq_nat.2 fun n hn => ?_
  obtain ⟨g, hg, rfl⟩ := List.mem_map.1 hn
  exact hnone g hg

/-- A session at rest has drained. -/
lemma drained_of_atRest (h : s.AtRest) (hw : s.writer = .working) : s.Drained := by
  refine ⟨h.outbound_eq_nil hw, fun i => ?_⟩
  cases hs : s.step (.answer i) with
  | none => rfl
  | some s' =>
    -- an answer that can be given has been told
    obtain ⟨g, f, hg, ht, hf, -⟩ := answer_cases hs
    have hslot : g.slot.isWaiting = false := by
      unfold Given.answer? at hf
      cases hslot : g.slot with
      | waiting =>
        rw [hslot] at hf
        exact absurd hf (by simp)
      | _ => rfl
    exact absurd (ht.symm.trans (h.told_of_answered hg hslot)) (by simp)

/-- What a session does on its own does not stop its writer. -/
lemma writer_of_own (ha : a.isOwn = true) (hs : s.step a = some s') (hw : s.writer = .working) :
    s'.writer = .working := by
  cases change_of_step hs with
  | begun | heard | unwritten => exact absurd ha (by simp [SessionAction.isOwn])
  | writerLost hl | writerOver hl => exact absurd (hw.symm.trans hl) (by simp)
  | failed | refused => exact (Sound.forsake_fields s _).2.2.2.trans hw
  | _ => exact hw

/-- A session whose writer works comes to rest on its own, and its writer still works then. -/
theorem exists_past_atRest (h : Past l s) (hw : s.writer = .working) :
    ∃ own s', Past (own ++ l) s' ∧ (∀ p ∈ own, p.2.isOwn = true) ∧ s'.AtRest ∧
      s'.writer = .working := by
  induction hn : s.work using Nat.strongRecOn generalizing l s with
  | ind n ih =>
    by_cases hrest : s.AtRest
    · exact ⟨[], s, h, by simp, hrest, hw⟩
    · -- something can be done, and leaves less to do
      simp only [AtRest, not_forall] at hrest
      obtain ⟨a, ha, hnot⟩ := hrest
      cases hs : s.step a with
      | none => exact absurd (.inl hs) hnot
      | some t =>
        have hlt := work_of_step (sound_of_past h) ha hs
        obtain ⟨own, s', hpast, hown, hrest, hw'⟩ :=
          ih t.work (hn ▸ hlt) (h.step hs) (writer_of_own ha hs hw) rfl
        refine ⟨own ++ [(s, a)], s', by simpa using hpast, ?_, hrest, hw'⟩
        intro p hp
        obtain hp | hp := List.mem_append.1 hp
        · exact hown p hp
        · rwa [List.mem_singleton.1 hp]

/-! ## Answers and invocations -/

/-- A drained session has written what it has told. -/
lemma told_of_drained (h : s.Drained) (r : UInt64) :
    s.told r = s.written.filter fun f => f.tells? = some r := by
  rw [told, queued, h.1, List.append_nil]

/-- As long as the writer works, each invocation that has come in has been answered, is owed an
answer, or found the queue full and no handler. When handlers are done with the invocations of a
number and the queue has drained, so many answers have been written under the number as invocations
came in, but for those that were missed. And the session drains the queue on its own. -/
theorem answered_of_past (h : Past l s) (hw : s.writer = .working) (r : UInt64) :
    (s.told r).length + s.owed r + missed l r = received l r ∧
    (s.Drained → (∀ g ∈ s.given, g.request = r → g.slot.isWaiting = false) →
      (s.written.filter fun f => f.tells? = some r).length + missed l r = received l r) ∧
    ∃ own s', Past (own ++ l) s' ∧ (∀ p ∈ own, p.2.isOwn = true) ∧ s'.Drained ∧
      s'.writer = .working := by
  have hbalance := balance_of_past (r := r) h hw
  refine ⟨hbalance, fun hdrained hdone => ?_, ?_⟩
  · rw [hdrained.owed_eq_zero hw hdone, told_of_drained hdrained] at hbalance
    exact hbalance
  · obtain ⟨own, s', hpast, hown, hrest, hw'⟩ := exists_past_atRest h hw
    exact ⟨own, s', hpast, hown, drained_of_atRest hrest hw', hw'⟩

lemma drained_of_told (hout : s.outbound = []) (h : ∀ g ∈ s.given, g.told = true) :
    s.Drained := by
  refine ⟨hout, fun i => ?_⟩
  cases hs : s.step (.answer i) with
  | none => rfl
  | some s' =>
    obtain ⟨g, f, hg, ht, -⟩ := answer_cases hs
    exact absurd (ht.symm.trans (h g (List.mem_of_getElem? hg))) (by simp)

/-- A handler is provided and answers an invocation, and another invocation has no handler. -/
def dialogue : List SessionAction :=
  [.begin (.provide "a" .exact 0), .check 0, .enqueue 0, .write,
    .read (.line (Frame.registered 1 9).text.toList),
    .read (.line (Frame.invocation 5 9 none [] []).text.toList),
    .read (.line (Frame.invocation 6 8 none [] []).text.toList),
    .complete 0 (.result {}), .answer 0, .write, .write]

/-- The session after that. -/
def conversed : Session := run {} dialogue

/-- Two requests are read, and both are answered and written. -/
theorem answered_of_dialogue : ∃ l, Past l conversed ∧ conversed.Drained ∧
    conversed.writer = .working ∧
    received l 5 = 1 ∧ missed l 5 = 0 ∧ received l 6 = 1 ∧ missed l 6 = 0 ∧
    (conversed.written.filter fun f => f.tells? = some 5).length + missed l 5 = received l 5 ∧
    (conversed.written.filter fun f => f.tells? = some 6).length + missed l 6 = received l 6 := by
  let l := trail {} dialogue
  have hpast : Past l conversed := past_trail dialogue
  have h : (conversed.writer = .working ∧ conversed.outbound = [] ∧
      (∀ g ∈ conversed.given, g.told = true) ∧
      (∀ g ∈ conversed.given, g.slot.isWaiting = false)) ∧
      (received (trail {} dialogue) 5 = 1 ∧ missed (trail {} dialogue) 5 = 0 ∧
        received (trail {} dialogue) 6 = 1 ∧ missed (trail {} dialogue) 6 = 0) := by
    decide +kernel
  obtain ⟨⟨hworking, hout, htold, hslot⟩, hcounts⟩ := h
  have hdrained : conversed.Drained := drained_of_told hout htold
  obtain ⟨-, hfive, -⟩ := answered_of_past hpast hworking 5
  obtain ⟨-, hsix, -⟩ := answered_of_past hpast hworking 6
  exact ⟨l, hpast, hdrained, hworking, hcounts.1, hcounts.2.1, hcounts.2.2.1, hcounts.2.2.2,
    hfive hdrained fun g hg _ => hslot g hg, hsix hdrained fun g hg _ => hslot g hg⟩

/-! ## An invocation that is missed -/

/-- An invocation of a registration that has no handler. -/
def inquiry (k : Nat) : Frame := .invocation (UInt64.ofNat (k + 1)) 9 none [] []

/-- That there is no handler for it. -/
def refusal (k : Nat) : Frame := noHandler (UInt64.ofNat (k + 1)) 9

/-- A session that has read so many of them. -/
def flooded (n : Nat) : Session := { outbound := (List.range n).map refusal }

/-- A session that has read as many as the queue holds, and has written some of the answers. -/
def ebbing (n : Nat) : Session :=
  { written := (List.range n).map refusal
    outbound := (List.range' n (capacity - n)).map refusal }

/-- A frame that has been written is read from its line. -/
theorem frameOf?_text {f : Frame} (hnormal : Json.AreNormalMembers f.members)
    (hdepth : f.toJson.depth ≤ Json.maxDepth) (hnumbers : ∀ n ∈ f.toJson.numbers, n.Exact) :
    frameOf? f.text.toList = some f := by
  have htext : f.text.toList = f.toJson.write := String.toList_ofList
  have hblank : Blank.isBlankLine f.text.toList = false := by
    rw [htext]
    rfl
  rw [frameOf?, hblank, if_neg (by simp), String.ofList_toList,
    Frame.parse_text hnormal hdepth hnumbers]
  rfl

lemma frameOf?_inquiry (k : Nat) : frameOf? (inquiry k).text.toList = some (inquiry k) := by
  refine frameOf?_text ⟨trivial, trivial, trivial, trivial, ⟨.nil, trivial⟩, trivial⟩ ?_ ?_
  · exact Nat.le_of_ble_eq_true rfl
  · intro n hn
    have hlt : (UInt64.ofNat (k + 1)).toNat < 18446744073709551616 := UInt64.toNat_lt _
    simp only [inquiry, Frame.toJson, Frame.members, Frame.word, Json.numbers,
      Json.numbersMembers, Json.numbersItems, Option.elim, List.nil_append, List.append_nil,
      List.cons_append, List.mem_cons, List.not_mem_nil, or_false] at hn
    obtain rfl | rfl := hn
    · exact ⟨by omega, by omega⟩
    · exact ⟨by decide, by decide⟩

lemma refusal_told (k : Nat) : (refusal k).tells? = some (UInt64.ofNat (k + 1)) := rfl

/-- An inquiry is refused while there is room for the refusal, and ignored after. -/
lemma invoke_flooded (n : Nat) : (flooded n).invoke (UInt64.ofNat (n + 1)) 9 ⟨none, [], []⟩
    = if n < capacity then flooded (n + 1) else flooded n := by
  have hhandler : (flooded n).handlers.get? 9 = none := rfl
  have hopen : (flooded n).isClosed = false := rfl
  have hroom : (flooded n).hasRoom = decide (n < capacity) := by
    simp [hasRoom, flooded]
  have hpush : (flooded n).push (refusal n) = flooded (n + 1) := by
    simp [push, flooded, List.range_succ]
  rw [invoke, hhandler]
  by_cases hfits : n < capacity
  · rw [if_pos hfits, ← hpush]
    simp only [hopen, hroom, hfits, decide_true, Bool.not_true, Bool.or_self, Bool.false_eq_true,
      if_false]
    rfl
  · simp [hopen, hroom, hfits]

/-- An inquiry is answered while there is room, and otherwise nothing becomes of it. -/
lemma read_inquiry (n : Nat) : (flooded n).step (.read (.line (inquiry n).text.toList))
    = some (if n < capacity then flooded (n + 1) else flooded n) := by
  have hreader : (flooded n).reader = .working := rfl
  simp only [step, read, hreader, ne_eq, not_true_eq_false, if_false, frameOf?_inquiry,
    Option.elim_some]
  rw [← invoke_flooded]
  rfl

/-- The outbound channel can be filled. -/
lemma past_flooded {n : Nat} (h : n ≤ capacity) : ∃ l, Past l (flooded n) := by
  induction n with
  | zero => exact ⟨[], .started⟩
  | succ n ih =>
    obtain ⟨l, hl⟩ := ih (Nat.le_of_succ_le h)
    have hread := read_inquiry n
    rw [if_pos (Nat.lt_of_succ_le h)] at hread
    exact ⟨_, hl.step hread⟩

/-- The writing loop empties the channel frame by frame. -/
lemma write_ebbing {n : Nat} (h : n < capacity) :
    (ebbing n).step .write = some (ebbing (n + 1)) := by
  obtain ⟨k, hk⟩ : ∃ k, capacity - n = k + 1 := ⟨capacity - n - 1, by omega⟩
  have hnext : capacity - (n + 1) = k := by omega
  have hout : (ebbing n).outbound = refusal n :: (List.range' (n + 1) k).map refusal := by
    rw [ebbing, hk, List.range'_succ, List.map_cons]
  have hwriter : (ebbing n).writer = .working := rfl
  simp only [step, write, hwriter, hout]
  simp [ebbing, hnext, List.range_succ]

/-- A full channel can be emptied. -/
lemma past_ebbing {l : List (Session × SessionAction)} (h : Past l (ebbing 0)) {n : Nat}
    (hn : n ≤ capacity) : ∃ own, Past (own ++ l) (ebbing n) := by
  induction n with
  | zero => exact ⟨[], h⟩
  | succ n ih =>
    obtain ⟨own, hown⟩ := ih (Nat.le_of_succ_le hn)
    exact ⟨_ :: own, hown.step (write_ebbing hn)⟩

/-- No answer among the first ones bears the next number. -/
lemma filter_refusals (n : Nat) (h : n < capacity + 1) :
    ((List.range n).map refusal).filter (fun f => f.tells? = some 257) = [] := by
  refine List.filter_eq_nil_iff.2 fun f hf => ?_
  obtain ⟨k, hk, rfl⟩ := List.mem_map.1 hf
  have hlt : k < 256 := Nat.lt_of_lt_of_le (List.mem_range.1 hk) (Nat.le_of_lt_succ h)
  simp only [refusal_told, Option.some.injEq, decide_eq_true_eq]
  intro heq
  have hnat := congrArg UInt64.toNat heq
  have hsize : UInt64.size = 18446744073709551616 := rfl
  have hofNat : (UInt64.ofNat (k + 1)).toNat = k + 1 := UInt64.toNat_ofNat_of_lt (by omega)
  rw [hofNat] at hnat
  change k + 1 = 257 at hnat
  omega

/-- An invocation can stay without an answer for ever in a session that is not lost: of 257 that
come in at once and have no handler, the last one finds the queue full. -/
theorem unanswered_of_flood : ¬∀ (l : List (Session × SessionAction)) (s : Session), Past l s →
    s.writer = .working → s.lost = false → s.Drained →
    (∀ g ∈ s.given, g.slot.isWaiting = false) →
    ∀ r, (s.written.filter fun f => f.tells? = some r).length = received l r := by
  intro hclaim
  -- 256 refusals fill the queue, one more inquiry is read, and then the queue is written out
  obtain ⟨l, hl⟩ := past_flooded (Nat.le_refl capacity)
  have hread := read_inquiry capacity
  rw [if_neg (Nat.lt_irrefl _)] at hread
  have hfull : flooded capacity = ebbing 0 := by
    simp [flooded, ebbing, List.range_eq_range']
  have hmissed : Past ((flooded capacity, .read (.line (inquiry capacity).text.toList)) :: l)
      (ebbing 0) := hfull ▸ hl.step hread
  obtain ⟨own, hpast⟩ := past_ebbing hmissed (Nat.le_refl capacity)
  have hdrained : (ebbing capacity).Drained := by
    refine drained_of_told ?_ fun g hg => absurd hg (by simp [ebbing])
    simp [ebbing]
  have hcount := hclaim _ _ hpast rfl rfl hdrained (fun g hg => absurd hg (by simp [ebbing])) 257
  have hwritten : ((ebbing capacity).written.filter fun f => f.tells? = some 257) = [] :=
    filter_refusals capacity (Nat.lt_succ_self _)
  have hhears : SessionAction.hears 257 (.read (.line (inquiry capacity).text.toList)) = true :=
    (hears_of_invocation (frameOf?_inquiry capacity)).trans (by decide)
  rw [hwritten, List.length_nil, received, eq_comm, List.countP_eq_zero] at hcount
  exact hcount (flooded capacity, .read (.line (inquiry capacity).text.toList)) (by simp) hhears

end Session
end Switchboard
