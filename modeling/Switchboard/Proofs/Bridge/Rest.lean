import Switchboard.Proofs.Bridge.Forwarding
import Switchboard.Proofs.Session.Rest

/-!
# Bridges that have come to rest

A bridge is at rest when its sessions are and no call can be taken further: the next thing to happen
comes from outside.

* `Bridge.AtRest` is that state. A call that has been accepted then waits for a reply on a session
  that is not lost, or its invocation has been answered.
* `Bridge.settles` says that a bridge comes to rest if nothing happens from outside.
-/

namespace Switchboard

/-- Whether a bridge takes the action on its own. -/
def BridgeAction.isOwn : BridgeAction → Bool
  | .begin _ | .settle _ | .reply _ | .within (.answer _) => true
  | .session _ x => x.isOwn
  | _ => false

namespace Bridge

/-- Nothing that the bridge could do on its own would change anything. -/
def AtRest (b : Bridge) : Prop :=
  ∀ a, a.isOwn = true → b.step a = none ∨ b.step a = some b

namespace AtRest

variable {b : Bridge} (h : b.AtRest)
include h

/-- An action that is possible changes nothing. -/
theorem eq_of_step {a : BridgeAction} {b' : Bridge} (ha : a.isOwn = true)
    (hs : b.step a = some b') : b' = b := by
  rcases h a ha with hnone | hsame
  · exact absurd (hnone.symm.trans hs) (by simp)
  · exact Option.some.inj (hs.symm.trans hsame)

omit h in
/-- A step of a connection's session is one of the bridge. -/
lemma sessionStep_eq {k : ConnectionId} {s s' : Session} {x : SessionAction}
    (hs : b.sessions.get? k = some s) (hx : s.step x = some s') :
    b.sessionStep k x = some { b with sessions := b.sessions.insert k s' } := by
  rw [sessionStep, hs, Option.bind_some, hx, Option.map_some]

/-- A session whose action changes nothing in the bridge is not changed by it. -/
lemma session_eq {k : ConnectionId} {s s' : Session} {x : SessionAction} {a : BridgeAction}
    (hs : b.sessions.get? k = some s) (hx : s.step x = some s') (ha : a.isOwn = true)
    (hstep : b.step a = b.sessionStep k x) : s' = s := by
  have hb := h.eq_of_step ha (hstep.trans (sessionStep_eq hs hx))
  have hget : (b.sessions.insert k s').get? k = b.sessions.get? k :=
    congrArg (fun b => b.sessions.get? k) hb
  rw [Table.get?_insert, if_pos rfl, hs] at hget
  exact Option.some.inj hget

lemma session {k : ConnectionId} {s : Session} (hs : b.sessions.get? k = some s) : s.AtRest := by
  intro x hx
  cases hstep : s.step x with
  | none => exact .inl rfl
  | some s' =>
    right
    have hown : b.isOwn k x = true := by
      cases x with
      | begin | read | complete | drop => exact absurd hx (by simp [SessionAction.isOwn])
      | _ => rfl
    have ha : (BridgeAction.session k x).isOwn = true := hx
    rw [h.session_eq hs hstep ha (by simp only [step, hown, if_true])]

/-- No call is left that could be made. -/
theorem not_ready {c : CallId} {f : Forward} {s : Session}
    (hf : b.exchange.forwards.get? c = some { f with stage := .ready })
    (hs : b.sessions.get? f.connection = some s) (hr : b.requests.get? c = none) : False := by
  have hbegin : ∃ b', b.begin c = some b' ∧ b'.requests.get? c = some s.count := by
    have he : ∃ e, b.exchange.step (.begin c) = some e := by
      simp only [Exchange.step, Exchange.begin, hf, if_true]
      exact ⟨_, rfl⟩
    obtain ⟨e, he⟩ := he
    have hx : s.step (.begin (.call f.procedure f.arguments)) = some _ := rfl
    simp only [begin, hf, hs, exchangeStep, he, Option.map_some, sessionStep, Option.bind_some, hx]
    exact ⟨_, rfl, (Table.get?_insert ..).trans (if_pos rfl)⟩
  obtain ⟨b', hb', hr'⟩ := hbegin
  rw [h.eq_of_step (a := .begin c) rfl hb', hr] at hr'
  exact absurd hr' (by simp)

/-- No call is left whose outcome is there. -/
theorem not_calling {c : CallId} {f : Forward} {out : RequestOutcome}
    (hf : b.exchange.forwards.get? c = some { f with stage := .calling })
    (ho : b.outcome? c = some out) : False := by
  have hsettle : ∃ b', b.settle c = some b' ∧ b'.exchange.forwards.get? c
      = some { f with stage := .answering (Exchange.replyOf (returned out)) } := by
    simp only [settle, ho, Option.bind_some, exchangeStep, Exchange.step, Exchange.settle, hf,
      if_true, Option.map_some]
    exact ⟨_, rfl, (Table.get?_insert ..).trans (if_pos rfl)⟩
  obtain ⟨b', hb', hf'⟩ := hsettle
  rw [h.eq_of_step (a := .settle c) rfl hb', hf] at hf'
  simp at hf'

/-- No call is left that has to be answered. -/
theorem not_answering {c : CallId} {f : Forward} {reply : Reply}
    (hf : b.exchange.forwards.get? c = some { f with stage := .answering reply }) : False := by
  have hanswer : ∃ b', b.step (.within (.answer c)) = some b' ∧
      b'.exchange.forwards.get? c = none := by
    have hinner : b.isInner (.answer c) = true := rfl
    simp only [step, hinner, if_true, exchangeStep, Exchange.step, Exchange.answer, hf,
      Option.map_some]
    exact ⟨_, rfl, (Table.get?_erase ..).trans (if_pos rfl)⟩
  obtain ⟨b', hb', hf'⟩ := hanswer
  rw [h.eq_of_step rfl hb', hf] at hf'
  exact absurd hf' (by simp)

/-- What a call has been answered has reached its invocation. -/
theorem told_of_answered {c : CallId} {old : List Frame} {i : Nat} {r : UInt64} {alone : Prop}
    {s : Session} {g : Given} {reply : Reply} (p : b.Placed c old i r alone s g)
    (hslot : b.exchange.calls.get? c = some (.answered reply)) : g.told = true := by
  have hx : s.step (.complete i reply)
      = some (s.modifyGiven i fun g => { g with slot := g.slot.answer reply }) := by
    simp only [Session.step, p.lt, if_true]
  have hreply : b.step (.reply i) = b.sessionStep Exchange.homeConnection (.complete i reply) := by
    have hs : b.exchange.slot c = .answered reply := by rw [Exchange.slot, hslot, Option.getD_some]
    simp only [step, Bridge.reply, p.call, Option.map_some, hs]
  have hsame := h.session_eq p.home hx rfl hreply
  refine (h.session p.home).told_of_answered p.ledger.given ?_
  have hg : s.given[i]? = some { g with slot := g.slot.answer reply } := by
    rw [← hsame, Session.getElem?_modifyGiven, if_pos rfl, p.ledger.given]
    rfl
  rw [p.ledger.given] at hg
  have hslot' : g.slot = g.slot.answer reply := congrArg Given.slot (Option.some.inj hg)
  rw [hslot']
  cases g.slot <;> rfl

end AtRest
end Bridge

/-! ## Coming to rest -/

/-- What is left to do for a forwarded call: to be made is to have a request. -/
def ForwardStage.work : ForwardStage → Nat
  | .ready => 7
  | .calling => 2
  | .answering _ => 1

namespace Bridge

/-- What is left to do for forwarded calls. -/
def forwardWork (t : Table CallId Forward) : Nat := t.total fun _ f => f.stage.work

/-- What is left to do in sessions. -/
def sessionWork (t : Table ConnectionId Session) : Nat := t.total fun _ s => s.work

/-- What is left to do in a bridge. -/
def work (b : Bridge) : Nat := forwardWork b.exchange.forwards + sessionWork b.sessions

variable {b b' : Bridge}

/-- What a change of one session does to the work of all. -/
lemma sessionWork_insert {t : Table ConnectionId Session} {k : ConnectionId} {s : Session}
    (hs : t.get? k = some s) (s' : Session) :
    sessionWork (t.insert k s') + s.work = sessionWork t + s'.work := by
  have h := t.total_insert (fun _ s => s.work) k s'
  rw [hs] at h
  exact h

/-- What a change of one forwarded call does to the work of all. -/
lemma forwardWork_insert {t : Table CallId Forward} {c : CallId} {f : Forward}
    (hf : t.get? c = some f) (f' : Forward) :
    forwardWork (t.insert c f') + f.stage.work = forwardWork t + f'.stage.work := by
  have h := t.total_insert (fun _ f => f.stage.work) c f'
  rw [hf] at h
  exact h

lemma forwardWork_erase {t : Table CallId Forward} {c : CallId} {f : Forward}
    (hf : t.get? c = some f) : forwardWork (t.erase c) + f.stage.work = forwardWork t := by
  have h := t.total_erase (fun _ f => f.stage.work) c
  rw [hf] at h
  exact h

/-- A session that has less to do leaves the bridge less to do. -/
lemma work_of_session {k : ConnectionId} {s s' : Session} (hs : b.sessions.get? k = some s)
    (hlt : s'.work < s.work) :
    ({ b with sessions := b.sessions.insert k s' } : Bridge).work < b.work := by
  have hinsert := sessionWork_insert hs s'
  change forwardWork b.exchange.forwards + sessionWork (b.sessions.insert k s') < _
  rw [work]
  omega

/-- An invocation that is answered leaves less to do, or has been answered. -/
theorem work_of_reply {s : Session} {i : Nat} {f : ReplySlot → ReplySlot}
    (hs : b.sessions.get? Exchange.homeConnection = some s)
    (hf : ∀ slot, f slot = slot ∨ (slot.isWaiting = true ∧ (f slot).isWaiting = false)) :
    let s' := s.modifyGiven i fun g => { g with slot := f g.slot }
    { b with sessions := b.sessions.insert Exchange.homeConnection s' } = b ∨
      ({ b with sessions := b.sessions.insert Exchange.homeConnection s' } : Bridge).work
        < b.work := by
  rcases s.work_of_reply hf with hsame | hlt
  · left
    rw [hsame, Table.insert_eq_self hs]
  · exact .inr (work_of_session hs hlt)

lemma work_of_answer {e : Exchange} {c : CallId} (h : b.exchange.step (.answer c) = some e) :
    ({ b with exchange := e } : Bridge).work < b.work := by
  cases Exchange.change_of_step h with
  | answered hf hstage =>
    have herase := forwardWork_erase hf
    rw [hstage] at herase
    change forwardWork (b.exchange.forwards.erase c) + sessionWork b.sessions < _
    rw [work, ← herase]
    exact Nat.add_lt_add_right (Nat.lt_succ_self _) _

/-- Making a call moves its work to a session, where less is left to do. -/
lemma work_of_begin {e : Exchange} {c : CallId} {f : Forward} {s : Session}
    (hf : b.exchange.forwards.get? c = some f) (hs : b.sessions.get? f.connection = some s)
    (h : b.exchange.step (.begin c) = some e) : forwardWork e.forwards + sessionWork
      (b.sessions.insert f.connection (s.begin (.call f.procedure f.arguments))) < b.work := by
  cases Exchange.change_of_step h with
  | begun hf' hstage =>
    cases Option.some.inj (hf.symm.trans hf')
    have hforward := forwardWork_insert hf { f with stage := .calling }
    have hsession := sessionWork_insert hs (s.begin (.call f.procedure f.arguments))
    have hbegin := s.work_begin (.call f.procedure f.arguments)
    have hready : f.stage.work = 7 := by rw [hstage]; rfl
    change _ = _ + 2 at hforward
    change forwardWork (b.exchange.forwards.insert c { f with stage := .calling }) + _ < _
    rw [work]
    omega

lemma work_of_settle {e : Exchange} {c : CallId} {outcome : Except SessionError CallResult}
    (h : b.exchange.step (.settle c outcome) = some e) :
    ({ b with exchange := e } : Bridge).work < b.work := by
  cases Exchange.change_of_step h with
  | @settled _ f _ hf hstage =>
    have hforward :=
      forwardWork_insert hf { f with stage := .answering (Exchange.replyOf outcome) }
    rw [hstage] at hforward
    change _ + 2 = _ + 1 at hforward
    change forwardWork (b.exchange.forwards.insert c _) + sessionWork b.sessions < _
    rw [work]
    omega

/-- What a bridge does on its own leaves it less to do, or changes nothing. -/
theorem work_of_step (w : b.Wired) {a : BridgeAction} (ha : a.isOwn = true)
    (h : b.step a = some b') : b' = b ∨ b'.work < b.work := by
  -- the outside actions are not the bridge's own
  cases change_of_step h with
  | @within x e _ hx =>
    cases x with
    | answer c => exact .inr (work_of_answer hx)
    | _ => exact absurd ha (by simp [BridgeAction.isOwn])
  | @session k x s s' _ hs hx =>
    exact .inr (work_of_session hs (Session.work_of_step (w.session k s hs).1 ha hx))
  | joined | heard | taken | lost => exact absurd ha (by simp [BridgeAction.isOwn])
  | @completed i c reply s s' _ _ hs hx =>
    cases Session.change_of_step hx with
    | completed =>
      refine work_of_reply (f := ReplySlot.answer reply) hs fun slot => ?_
      cases slot with
      | waiting => exact .inr ⟨rfl, rfl⟩
      | answered | abandoned => exact .inl rfl
  | @dropped i c s s' _ _ hs hx =>
    cases Session.change_of_step hx with
    | dropped =>
      refine work_of_reply (f := ReplySlot.abandon) hs fun slot => ?_
      cases slot with
      | waiting => exact .inr ⟨rfl, rfl⟩
      | answered | abandoned => exact .inl rfl
  | begun hf hs hx => exact .inr (work_of_begin hf hs hx)
  | settled _ hx => exact .inr (work_of_settle hx)

/-- The router has no part in what a bridge does on its own. -/
lemma admits_of_isOwn {a : BridgeAction} (ha : a.isOwn = true) : b.admits a = true := by
  cases a with
  | read | join | lose => exact absurd ha (by simp [BridgeAction.isOwn])
  | _ => rfl

/-- A bridge comes to rest if nothing happens from outside. -/
theorem settles (w : b.Wired) :
    ∃ l b', (∀ a ∈ l, BridgeAction.isOwn a = true) ∧ b.course l = some b' ∧ b'.AtRest := by
  -- as long as it is not at rest there is something left to do
  induction hn : b.work using Nat.strongRecOn generalizing b with
  | ind n ih =>
    by_cases hrest : b.AtRest
    · exact ⟨[], b, by simp, rfl, hrest⟩
    · have hmoves : ∃ a m, BridgeAction.isOwn a = true ∧ b.step a = some m ∧ m ≠ b := by
        unfold AtRest at hrest
        push Not at hrest
        obtain ⟨a, ha, hsome, hne⟩ := hrest
        obtain ⟨m, hm⟩ := Option.ne_none_iff_exists'.1 hsome
        exact ⟨a, m, ha, hm, fun he => hne (by rw [hm, he])⟩
      obtain ⟨a, m, ha, hm, hne⟩ := hmoves
      have hlt := (work_of_step w ha hm).resolve_left hne
      obtain ⟨l, b', hl, hcourse, hrest'⟩ :=
        ih m.work (hn ▸ hlt) (w.step (change_of_step hm)) rfl
      refine ⟨a :: l, b', ?_, ?_, hrest'⟩
      · intro x hx
        rcases List.mem_cons.1 hx with rfl | hx
        · exact ha
        · exact hl x hx
      · rw [course, if_pos (admits_of_isOwn ha), hm, Option.bind_some]
        exact hcourse

end Bridge
end Switchboard
