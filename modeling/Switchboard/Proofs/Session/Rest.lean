import Switchboard.Proofs.Session.Frames

/-!
# Sessions that have come to rest

A session is at rest when nothing is left that it could do on its own: the next thing to happen is
that a frame comes in, a handler answers, a request begins, or a write fails.

* `SessionAction.isOwn` are the actions that a session takes on its own.
* `Session.AtRest` is the state where there are none. Its queue is empty or closed, its requests
  wait for their replies or are done, and what handlers have answered is told.
* `Session.work` is what a session has left to do, and `work_of_step` says that it gets less.
-/

namespace Switchboard

/-- Whether a session takes the action on its own. -/
def SessionAction.isOwn : SessionAction → Bool
  | .check _ | .enqueue _ | .collect _ | .answer _ | .write | .announce _ | .giveUp _ => true
  | _ => false

/-- A handler that is done with an invocation has an answer to it. -/
theorem Given.answer?_of_not_waiting {g : Given} (hslot : g.slot.isWaiting = false) :
    ∃ f, g.answer? = some f := by
  unfold Given.answer?
  cases hs : g.slot with
  | waiting =>
    rw [hs] at hslot
    exact absurd hslot (by decide)
  | answered reply => cases reply <;> exact ⟨_, rfl⟩
  | abandoned => exact ⟨_, rfl⟩

namespace Session

/-- Nothing that the session could do on its own would change anything. -/
def AtRest (s : Session) : Prop :=
  ∀ a, a.isOwn = true → s.step a = none ∨ s.step a = some s

namespace AtRest

variable {s : Session} (h : s.AtRest)
include h

/-- An action that is possible changes nothing. -/
theorem eq_of_step {a : SessionAction} {s' : Session} (ha : a.isOwn = true)
    (hs : s.step a = some s') : s' = s := by
  rcases h a ha with hnone | hsame
  · exact absurd (hnone.symm.trans hs) (by simp)
  · exact Option.some.inj (hs.symm.trans hsame)

/-- The writer has nothing to write. -/
theorem outbound_eq_nil (hw : s.writer = .working) : s.outbound = [] := by
  cases hq : s.outbound with
  | nil => rfl
  | cons f rest =>
    have hs : s.step .write = some { s with outbound := rest, written := s.written ++ [f] } := by
      simp only [step, write, hw, hq]
    have hsame := congrArg (fun s => s.outbound.length) (h.eq_of_step rfl hs)
    simp [hq] at hsame

/-- A loop that has ended has done all that was left to it. -/
lemma stage_cases (l : SessionLoop) : s.stage l = .working ∨ s.stage l = .over := by
  have hstage : ∀ stage,
      (({ s with lost := true } : Session).setStage stage l).stage l = stage := by
    intro stage
    cases l <;> rfl
  cases hl : s.stage l with
  | working => exact .inl rfl
  | ended =>
    have hs : s.step (.announce l) = some ({ s with lost := true }.setStage .announced l) := by
      simp only [step, announce, hl, if_true]
    have hsame := congrArg (fun s => s.stage l) (h.eq_of_step rfl hs)
    rw [hstage, hl] at hsame
    exact absurd hsame (by simp)
  | announced =>
    have hover : ∃ s', s.step (.giveUp l) = some s' ∧ s'.stage l = .over := by
      simp only [step, giveUp, hl, ne_eq, not_true_eq_false, if_false]
      refine ⟨_, rfl, ?_⟩
      cases l <;> rfl
    obtain ⟨s', hs, hl'⟩ := hover
    rw [h.eq_of_step rfl hs, hl] at hl'
    exact absurd hl' (by simp)
  | _ => exact .inr rfl

/-- The queue takes a frame, or it takes none any more. -/
lemma closed_or_hasRoom : s.isClosed = true ∨ s.hasRoom = true := by
  rcases h.stage_cases .writer with hw | hw
  · right
    rw [hasRoom, h.outbound_eq_nil hw]
    rfl
  · left
    exact decide_eq_true hw

/-- A request that moves to another stage is not at rest. -/
lemma stage_of_advance {n : Nat} {r : Request} {a : SessionAction} {s' : Session}
    {stage : RequestStage} (hr : s.requests.get? n = some r) (ha : a.isOwn = true)
    (hs : s.step a = some s')
    (hstage : (s'.requests.get? n).map Request.stage = some stage) : r.stage = stage := by
  rw [h.eq_of_step ha hs, hr] at hstage
  exact Option.some.inj hstage

/-- A request waits for its reply, or it is done. -/
theorem request_cases (hsound : s.Sound) {n : Nat} {r : Request}
    (hr : s.requests.get? n = some r) :
    (r.stage = .waiting ∧ r.reply = .awaited) ∨ ∃ o, r.stage = .done o := by
  -- an action that changed the stage would be possible, so the stage is one that none changes
  have hget : ∀ (t : Session) (stage : RequestStage) (r' : Request),
      t.requests.get? n = some r' →
        ((t.advance n stage).requests.get? n).map Request.stage = some stage := by
    intro t stage r' hr'
    change ((t.requests.modify n _).get? n).map _ = _
    rw [Table.get?_modify, if_pos rfl, hr']
    rfl
  have hfail : ((s.failRequest n).requests.get? n).map Request.stage
      = some (.done (.failed .disconnected)) := by
    obtain ⟨r', hr', -⟩ := onward_forsake hsound hr (requestId n)
    exact hget _ _ r' hr'
  obtain ⟨demand, stage, reply⟩ := r
  cases stage with
  | entered =>
    have hs : s.step (.check n)
        = some (if s.lost then s.failRequest n else s.advance n .sending) := by
      simp only [step, check, hr]
    cases hlost : s.lost with
    | true =>
      rw [hlost, if_pos rfl] at hs
      exact absurd (h.stage_of_advance hr rfl hs hfail) (by simp)
    | false =>
      rw [hlost, if_neg (by simp)] at hs
      exact absurd (h.stage_of_advance hr rfl hs (hget s _ _ hr)) (by simp)
  | sending =>
    cases hclosed : s.isClosed with
    | true =>
      have hs : s.step (.enqueue n) = some (s.failRequest n) := by
        simp only [step, enqueue, hr, hclosed, if_true]
      exact absurd (h.stage_of_advance hr rfl hs hfail) (by simp)
    | false =>
      have hroom : s.hasRoom = true := h.closed_or_hasRoom.resolve_left (by simp [hclosed])
      have hs : s.step (.enqueue n)
          = some ((s.push (demand.frame (requestId n))).advance n .waiting) := by
        simp only [step, enqueue, hr, hclosed, hroom, Bool.false_eq_true, if_false, if_true]
      exact absurd (h.stage_of_advance hr rfl hs (hget _ _ _ hr)) (by simp)
  | waiting =>
    cases reply with
    | awaited => exact .inl ⟨rfl, rfl⟩
    | arrived f =>
      have hs : s.step (.collect n) = some (s.advance n (.done (demand.kind.interpret f))) := by
        simp only [step, collect, hr]
      exact absurd (h.stage_of_advance hr rfl hs (hget s _ _ hr)) (by simp)
    | never =>
      have hs : s.step (.collect n) = some (s.advance n (.done (.failed .disconnected))) := by
        simp only [step, collect, hr]
      exact absurd (h.stage_of_advance hr rfl hs (hget s _ _ hr)) (by simp)
  | done o => exact .inr ⟨o, rfl⟩

/-- While a request waits for its reply the session is not lost, and all frames have been written.
-/
theorem alive_of_waiting (hsound : s.Sound) {n : Nat} {r : Request}
    (hr : s.requests.get? n = some r) (hstage : r.stage = .waiting) (hreply : r.reply = .awaited) :
    s.lost = false ∧ s.writer = .working ∧ s.outbound = [] := by
  have hover : s.isOver ≠ true := fun ho => by
    have hentered := (hsound.proper n r hr).entered ho hreply
    exact absurd (hstage.symm.trans hentered) (by simp)
  have hreader : s.reader = .working :=
    (h.stage_cases .reader).resolve_right fun hx => hover (isOver_iff.2 (.inl hx))
  have hwriter : s.writer = .working :=
    (h.stage_cases .writer).resolve_right fun hx => hover (isOver_iff.2 (.inr hx))
  refine ⟨?_, hwriter, h.outbound_eq_nil hwriter⟩
  by_contra hlost
  rcases hsound.lost (by simpa using hlost) with hx | hx
  · rw [hreader] at hx
    exact absurd hx (by decide)
  · rw [hwriter] at hx
    exact absurd hx (by decide)

/-- What a handler has answered is told. -/
theorem told_of_answered {i : Nat} {g : Given} (hg : s.given[i]? = some g)
    (hslot : g.slot.isWaiting = false) : g.told = true := by
  cases ht : g.told with
  | true => rfl
  | false =>
    obtain ⟨f, hf⟩ := Given.answer?_of_not_waiting hslot
    have hstep : ∃ s', s.step (.answer i) = some s' ∧
        s'.given = (s.modifyGiven i fun g => { g with told := true }).given := by
      simp only [step, answer, hg, ht, hf, Bool.false_eq_true, if_false]
      cases hclosed : s.isClosed with
      | true => exact ⟨_, rfl, rfl⟩
      | false =>
        have hroom : s.hasRoom = true := h.closed_or_hasRoom.resolve_left (by simp [hclosed])
        rw [if_neg (by simp), if_pos hroom]
        exact ⟨_, rfl, rfl⟩
    obtain ⟨s', hs, hgiven⟩ := hstep
    rw [h.eq_of_step rfl hs] at hgiven
    have hi : s.given[i]? = some { g with told := true } := by
      rw [hgiven, getElem?_modifyGiven, if_pos rfl, hg]
      rfl
    rw [hg] at hi
    have htold := congrArg Given.told (Option.some.inj hi)
    exact absurd (ht.symm.trans htold) (by simp)

end AtRest
end Session

/-! ## What is left to do -/

/-- What is left to do for a request: to be sent is to have a frame written. -/
def RequestStage.work : RequestStage → Nat
  | .entered => 4
  | .sending => 3
  | .waiting => 1
  | .done _ => 0

/-- What is left to do for an invocation: to be answered, and to have the answer written. -/
def Given.work (g : Given) : Nat := g.slot.isWaiting.toNat + if g.told then 0 else 2

/-- What is left to do for a loop. -/
def LoopStage.work : LoopStage → Nat
  | .ended => 2
  | .announced => 1
  | _ => 0

namespace Session

/-- What is left to do for the requests. -/
def requestWork (s : Session) : Nat := s.requests.total fun _ r => r.stage.work

/-- What is left to do for the invocations. -/
def givenWork (s : Session) : Nat := (s.given.map Given.work).sum

/-- What is left to do in a session. -/
def work (s : Session) : Nat :=
  s.requestWork + s.givenWork + s.outbound.length + s.reader.work + s.writer.work

variable {s s' : Session} {n : Nat} {r : Request}

/-- What an advance of one request does to the work of all. -/
lemma requestWork_advance (hr : s.requests.get? n = some r) (stage : RequestStage) :
    (s.advance n stage).requestWork + r.stage.work = s.requestWork + stage.work := by
  have h := s.requests.total_modify (fun _ r => r.stage.work) n fun r => { r with stage }
  rw [hr] at h
  exact h

/-- A reply changes nothing in what is left to do, nor that there will be none. -/
lemma requestWork_reply (s : Session) (n : Nat) (reply : ReplyFrame) :
    (s.modifyRequest n fun r => { r with reply }).requestWork = s.requestWork := by
  have h := s.requests.total_modify (fun _ r => r.stage.work) n fun r => { r with reply }
  cases hr : s.requests.get? n with
  | none =>
    rw [hr] at h
    exact h
  | some r =>
    rw [hr] at h
    exact Nat.add_right_cancel h

/-- Giving up a number is no work. -/
lemma work_forsake (s : Session) (id : UInt64) : (s.forsake id).work = s.work := by
  unfold forsake
  split
  · rfl
  · next w _ =>
    have h := requestWork_reply s w.request .never
    unfold work requestWork at *
    rw [← h]
    rfl

lemma requestWork_cutReplies (s : Session) : s.cutReplies.requestWork = s.requestWork := by
  unfold cutReplies
  generalize s.pending.values = ws
  induction ws generalizing s with
  | nil => rfl
  | cons w rest ih => rw [List.foldl_cons, ih, requestWork_reply]

/-- With a request in another stage what is left to do for it is different. -/
lemma work_advance (hr : s.requests.get? n = some r) (stage : RequestStage) :
    (s.advance n stage).work + r.stage.work = s.work + stage.work := by
  have h := requestWork_advance hr stage
  have hother : (s.advance n stage).work = (s.advance n stage).requestWork + s.givenWork
      + s.outbound.length + s.reader.work + s.writer.work := rfl
  rw [hother, work]
  omega

/-- A request that comes to a later stage leaves less to do. -/
lemma work_advance_lt (hr : s.requests.get? n = some r) {stage : RequestStage}
    (hlt : stage.work < r.stage.work) : (s.advance n stage).work < s.work := by
  have hadvance := work_advance hr stage
  omega

/-- The failure of a request is work done. -/
lemma work_failRequest (hsound : s.Sound) (hr : s.requests.get? n = some r)
    (hlt : 0 < r.stage.work) : (s.failRequest n).work < s.work := by
  obtain ⟨r', hr', -, hstage, -⟩ := onward_forsake hsound hr (requestId n)
  rw [← work_forsake s (requestId n)]
  refine work_advance_lt hr' ?_
  rw [hstage]
  exact hlt

/-- With one invocation changed a sum over all of them changes by what it counts for. -/
theorem sum_modifyGiven {i : Nat} {g : Given} (hg : s.given[i]? = some g) (f : Given → Given)
    (weight : Given → Nat) : ((s.modifyGiven i f).given.map weight).sum + weight g
      = (s.given.map weight).sum + weight (f g) := by
  -- over the invocations, down to the one that changes
  have h : ∀ (l : List Given) (i : Nat), l[i]? = some g →
      ((l.modify i f).map weight).sum + weight g = (l.map weight).sum + weight (f g) := by
    intro l
    induction l with
    | nil => exact fun _ hi => absurd hi (by simp)
    | cons x rest ih =>
      intro i hi
      cases i with
      | zero =>
        rw [List.getElem?_cons_zero, Option.some.injEq] at hi
        rw [hi, List.modify_zero_cons]
        simp only [List.map_cons, List.sum_cons]
        omega
      | succ i =>
        rw [List.getElem?_cons_succ] at hi
        have hrest := ih i hi
        rw [List.modify_succ_cons]
        simp only [List.map_cons, List.sum_cons]
        omega
  exact h s.given i hg

/-- What a change of one invocation does to the work of all. -/
lemma givenWork_modify {i : Nat} {g : Given} (hg : s.given[i]? = some g) (f : Given → Given) :
    (s.modifyGiven i f).givenWork + g.work = s.givenWork + (f g).work :=
  sum_modifyGiven hg f Given.work

/-- An invocation for which less is left to do leaves less to do. -/
lemma work_modifyGiven {i : Nat} {g : Given} {f : Given → Given} (hg : s.given[i]? = some g) :
    (s.modifyGiven i f).work + g.work = s.work + (f g).work := by
  have h := givenWork_modify hg f
  have hother : (s.modifyGiven i f).work = s.requestWork + (s.modifyGiven i f).givenWork
      + s.outbound.length + s.reader.work + s.writer.work := rfl
  rw [hother, work]
  omega

lemma work_push (s : Session) (f : Frame) : (s.push f).work = s.work + 1 := by
  have hother : (s.push f).work = s.requestWork + s.givenWork
      + (s.outbound ++ [f]).length + s.reader.work + s.writer.work := rfl
  rw [hother, work, List.length_append, List.length_singleton]
  omega

/-- A reply to an invocation leaves less to do, or it is none to what has been answered. -/
theorem work_of_reply {i : Nat} {f : ReplySlot → ReplySlot}
    (hf : ∀ slot, f slot = slot ∨ (slot.isWaiting = true ∧ (f slot).isWaiting = false)) :
    let s' := s.modifyGiven i fun g => { g with slot := f g.slot }
    s' = s ∨ s'.work < s.work := by
  -- a session whose invocations are as before is as before
  have hgiven : (∀ j : Nat, (s.modifyGiven i fun g => { g with slot := f g.slot }).given[j]?
      = s.given[j]?) → (s.modifyGiven i fun g => { g with slot := f g.slot }) = s := by
    intro hall
    have hsame : (s.given.modify i fun g => { g with slot := f g.slot }) = s.given :=
      List.ext_getElem? hall
    rw [modifyGiven, hsame]
  cases hg : s.given[i]? with
  | none =>
    refine .inl (hgiven fun j => ?_)
    rw [getElem?_modifyGiven]
    split
    · next hij => rw [← hij, hg, Option.map_none]
    · rfl
  | some g =>
    rcases hf g.slot with hsame | ⟨hw, hw'⟩
    · refine .inl (hgiven fun j => ?_)
      rw [getElem?_modifyGiven]
      split
      · next hij =>
        rw [← hij, hg, Option.map_some, hsame]
      · rfl
    · right
      have h := work_modifyGiven (f := fun g => { g with slot := f g.slot }) hg
      simp only [Given.work, hw, hw', Bool.toNat_true, Bool.toNat_false] at h
      omega

/-- A request that begins is there to be done. -/
theorem work_begin (s : Session) (demand : Demand) : (s.begin demand).work ≤ s.work + 4 := by
  let t := s.forsake (requestId s.count)
  have hinsert := t.requests.total_insert (fun _ r => r.stage.work) t.count { demand }
  have hwork : (s.begin demand).work
      = (t.requests.insert t.count { demand }).total (fun _ r => r.stage.work) + t.givenWork
        + t.outbound.length + t.reader.work + t.writer.work := rfl
  have ht : t.work = s.work := work_forsake s _
  change _ + _ = t.requestWork + 4 at hinsert
  rw [hwork, ← ht, work]
  omega

/-- To tell an invocation its answer is done. -/
lemma work_tell {i : Nat} {g : Given} (hg : s.given[i]? = some g) (ht : g.told = false) :
    (s.tell i).work + 2 = s.work := by
  have h := work_modifyGiven (f := fun g => { g with told := true }) hg
  simp only [Given.work, ht, if_true, Bool.false_eq_true, if_false] at h
  have htell : (s.tell i).work = (s.modifyGiven i fun g => { g with told := true }).work := rfl
  omega

/-- What a session does on its own leaves it less to do. -/
theorem work_of_step (hsound : s.Sound) {a : SessionAction} (ha : a.isOwn = true)
    (hs : s.step a = some s') : s'.work < s.work := by
  cases change_of_step hs with
  | begun | ignored | heard | stopped | completed | dropped | unwritten =>
    exact absurd ha (by simp [SessionAction.isOwn])
  | checked hr hstage | collected hr hstage | forsaken hr hstage =>
    refine work_advance_lt hr ?_
    rw [hstage]
    simp [RequestStage.work]
  | failed hr hstage | refused hr hstage =>
    refine work_failRequest hsound hr ?_
    rw [hstage]
    simp [RequestStage.work]
  | @sent n r hr hstage =>
    -- the frame is left to be written instead
    have hadvance := work_advance (s := s.push (r.demand.frame (requestId n))) hr .waiting
    rw [hstage, work_push] at hadvance
    simp only [RequestStage.work] at hadvance
    omega
  | @answered i g f hg ht =>
    have htell := work_tell (s := s.push f) hg ht
    rw [work_push] at htell
    omega
  | unanswered hg ht =>
    have htell := work_tell hg ht
    omega
  | wrote _ hq =>
    rw [work, work]
    simp only [requestWork, givenWork, hq, List.length_cons]
    omega
  | readerLost hl | writerLost hl =>
    rw [work, work]
    simp only [requestWork, givenWork, hl, LoopStage.work]
    omega
  | readerOver hl =>
    have hcut := requestWork_cutReplies s
    rw [work, work]
    simp only [requestWork] at hcut
    simp only [requestWork, givenWork, hl, LoopStage.work]
    omega
  | writerOver hl =>
    have hcut := requestWork_cutReplies s
    rw [work, work]
    simp only [requestWork] at hcut
    simp only [requestWork, givenWork, hl, LoopStage.work, List.length_nil]
    omega

end Session
end Switchboard
