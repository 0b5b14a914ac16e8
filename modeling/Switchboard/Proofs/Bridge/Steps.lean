import Switchboard.Bridge
import Switchboard.Proofs.Exchange.Connections
import Switchboard.Proofs.Session.Frames

/-!
# What an action does to a bridge

* `Bridge.Change` lists what may become of a bridge by an action, with the step that its exchange
  takes and the step that a session takes. `change_of_step` says that the list is complete.
* `Bridge.Drives` relates an action of a bridge to the action of a session that it is, and
  `session_of_change` says that a session takes no other step.
-/

namespace Switchboard
namespace Bridge

variable {b b' : Bridge}

/-- What becomes of a bridge by an action. -/
inductive Change (b : Bridge) : BridgeAction → Bridge → Prop
  | within {x : ExchangeAction} {e : Exchange} (hx : b.isInner x = true)
    (h : b.exchange.step x = some e) : Change b (.within x) { b with exchange := e }
  | session {c : ConnectionId} {x : SessionAction} {s s' : Session} (hx : b.isOwn c x = true)
    (hs : b.sessions.get? c = some s) (h : s.step x = some s') :
    Change b (.session c x) { b with sessions := b.sessions.insert c s' }
  | joined {id : SessionId} {e : Exchange}
    (h : b.exchange.step (.connect id (some b.nextConnection)) = some e) :
    Change b (.join id)
      { b with
        exchange := e
        sessions := b.sessions.insert b.nextConnection {}
        nextConnection := b.nextConnection + 1 }
  /-- What is read is no invocation for the exchange. -/
  | heard {event : LineEvent} {s s' : Session}
    (hs : b.sessions.get? Exchange.homeConnection = some s) (h : s.step (.read event) = some s')
    (hg : ∀ g, s'.given[s.given.length]? = some g → g.handler ≠ handler) :
    Change b (.read event)
      { b with sessions := b.sessions.insert Exchange.homeConnection s' }
  /-- What is read is an invocation for the exchange. -/
  | taken {event : LineEvent} {s s' : Session} {g : Given}
    (hs : b.sessions.get? Exchange.homeConnection = some s) (h : s.step (.read event) = some s')
    (hg : s'.given[s.given.length]? = some g) (hh : g.handler = handler) :
    Change b (.read event)
      { b with
        exchange := b.exchange.offer g.invocation
        sessions := b.sessions.insert Exchange.homeConnection s'
        calls := b.calls.insert s.given.length b.exchange.nextCall }
  | completed {i : Nat} {c : CallId} {r : Reply} {s s' : Session} (hc : b.calls.get? i = some c)
    (hr : b.exchange.slot c = .answered r)
    (hs : b.sessions.get? Exchange.homeConnection = some s) (h : s.step (.complete i r) = some s') :
    Change b (.reply i) { b with sessions := b.sessions.insert Exchange.homeConnection s' }
  | dropped {i : Nat} {c : CallId} {s s' : Session} (hc : b.calls.get? i = some c)
    (hr : b.exchange.slot c = .abandoned)
    (hs : b.sessions.get? Exchange.homeConnection = some s) (h : s.step (.drop i) = some s') :
    Change b (.reply i) { b with sessions := b.sessions.insert Exchange.homeConnection s' }
  | begun {c : CallId} {f : Forward} {s : Session} {e : Exchange}
    (hf : b.exchange.forwards.get? c = some f) (hs : b.sessions.get? f.connection = some s)
    (h : b.exchange.step (.begin c) = some e) :
    Change b (.begin c)
      { b with
        exchange := e
        sessions := b.sessions.insert f.connection (s.begin (.call f.procedure f.arguments))
        requests := b.requests.insert c s.count }
  | settled {c : CallId} {o : RequestOutcome} {e : Exchange} (ho : b.outcome? c = some o)
    (h : b.exchange.step (.settle c (returned o)) = some e) :
    Change b (.settle c) { b with exchange := e }
  | lost {c : ConnectionId} {e : Exchange} (h : b.exchange.step (.lose c) = some e) :
    Change b (.lose c) { b with exchange := e }

/-- A step of a connection's session changes nothing else. -/
lemma sessionStep_cases {c : ConnectionId} {x : SessionAction}
    (h : b.sessionStep c x = some b') : ∃ s s', b.sessions.get? c = some s ∧ s.step x = some s' ∧
      b' = { b with sessions := b.sessions.insert c s' } := by
  rw [sessionStep, Option.map_eq_some_iff] at h
  obtain ⟨s', hs', rfl⟩ := h
  obtain ⟨s, hs, hstep⟩ := Option.bind_eq_some_iff.1 hs'
  exact ⟨s, s', hs, hstep, rfl⟩

lemma change_of_read {event : LineEvent} (h : b.read event = some b') :
    b.Change (.read event) b' := by
  unfold read at h
  split at h
  · exact absurd h (by simp)
  · next s hs =>
    rw [Option.map_eq_some_iff] at h
    obtain ⟨m, hm, rfl⟩ := h
    obtain ⟨s₀, s', hs₀, hstep, rfl⟩ := sessionStep_cases hm
    rw [hs] at hs₀
    cases Option.some.inj hs₀
    have hhome : (b.sessions.insert Exchange.homeConnection s').get? Exchange.homeConnection
        = some s' := (Table.get?_insert ..).trans (if_pos rfl)
    unfold take
    simp only [hhome, Option.bind_some]
    cases hg : s'.given[s.given.length]? with
    | none => exact .heard hs hstep fun g hg' => absurd (hg.symm.trans hg') (by simp)
    | some g =>
      by_cases hh : g.handler = handler
      · simp only [hh, ne_eq, not_true_eq_false, if_false]
        exact .taken hs hstep hg hh
      · simp only [ne_eq, hh, not_false_eq_true, if_true]
        refine .heard hs hstep fun g' hg' => ?_
        rw [hg] at hg'
        exact Option.some.inj hg' ▸ hh

lemma change_of_reply {i : Nat} (h : b.reply i = some b') : b.Change (.reply i) b' := by
  unfold reply at h
  split at h
  · exact absurd h (by simp)
  · exact absurd h (by simp)
  · next r hr =>
    obtain ⟨c, hc, hr⟩ := Option.map_eq_some_iff.1 hr
    obtain ⟨s, s', hs, hstep, rfl⟩ := sessionStep_cases h
    exact .completed hc hr hs hstep
  · next hr =>
    obtain ⟨c, hc, hr⟩ := Option.map_eq_some_iff.1 hr
    obtain ⟨s, s', hs, hstep, rfl⟩ := sessionStep_cases h
    exact .dropped hc hr hs hstep

lemma change_of_begin {c : CallId} (h : b.begin c = some b') : b.Change (.begin c) b' := by
  unfold begin at h
  split at h
  · exact absurd h (by simp)
  · next f hf =>
    split at h
    · next s m hs hm =>
      rw [exchangeStep, Option.map_eq_some_iff] at hm
      obtain ⟨e, he, rfl⟩ := hm
      rw [Option.map_eq_some_iff] at h
      obtain ⟨m', hm', rfl⟩ := h
      obtain ⟨s₀, s', hs₀, hstep, rfl⟩ := sessionStep_cases hm'
      have hs₀' : b.sessions.get? f.connection = some s₀ := hs₀
      rw [hs] at hs₀'
      cases Option.some.inj hs₀'
      cases Option.some.inj hstep
      exact .begun hf hs he
    · exact absurd h (by simp)

/-- Every action is one of the changes. -/
theorem change_of_step {a : BridgeAction} (h : b.step a = some b') : b.Change a b' := by
  cases a with
  | within x =>
    simp only [step] at h
    split at h
    · next hx =>
      rw [exchangeStep, Option.map_eq_some_iff] at h
      obtain ⟨e, he, rfl⟩ := h
      exact .within hx he
    · exact absurd h (by simp)
  | session c x =>
    simp only [step] at h
    split at h
    · next hx =>
      obtain ⟨s, s', hs, hstep, rfl⟩ := sessionStep_cases h
      exact .session hx hs hstep
    · exact absurd h (by simp)
  | join id =>
    simp only [step, join, exchangeStep, Option.map_eq_some_iff] at h
    obtain ⟨m, ⟨e, he, rfl⟩, rfl⟩ := h
    exact .joined he
  | read event => exact change_of_read h
  | reply i => exact change_of_reply h
  | begin c => exact change_of_begin h
  | settle c =>
    simp only [step, settle, Option.bind_eq_some_iff, exchangeStep, Option.map_eq_some_iff] at h
    obtain ⟨o, ho, e, he, rfl⟩ := h
    exact .settled ho he
  | lose c =>
    simp only [step, lose] at h
    split at h
    · split at h
      · rw [exchangeStep, Option.map_eq_some_iff] at h
        obtain ⟨e, he, rfl⟩ := h
        exact .lost he
      · exact absurd h (by simp)
    · exact absurd h (by simp)

/-- The exchange takes one step at most, by which no caller leaves whose call is on the home
session. -/
theorem exchange_of_change {a : BridgeAction} (h : b.Change a b') :
    b'.exchange = b.exchange ∨
      ∃ x, b.exchange.step x = some b'.exchange ∧ ∀ c, x = .leave c → c ∉ b.calls.values := by
  cases h with
  | within hx h => exact .inr ⟨_, h, fun c hc => by simpa [hc, isInner] using hx⟩
  | joined h | begun _ _ h | settled _ h | lost h => exact .inr ⟨_, h, fun c hc => by simp at hc⟩
  | @taken _ _ _ g => exact .inr ⟨.invoke g.invocation, rfl, fun c hc => by simp at hc⟩
  | session | heard | completed | dropped => exact .inl rfl

/-- The action of the session of a connection that an action of the bridge is. -/
inductive Drives (b : Bridge) (k : ConnectionId) : BridgeAction → SessionAction → Prop
  | own {x : SessionAction} (hx : b.isOwn k x = true) : Drives b k (.session k x) x
  | read {event : LineEvent} (hk : k = Exchange.homeConnection) :
    Drives b k (.read event) (.read event)
  | completed {i : Nat} {c : CallId} {r : Reply} (hk : k = Exchange.homeConnection)
    (hc : b.calls.get? i = some c) (hr : b.exchange.slot c = .answered r) :
    Drives b k (.reply i) (.complete i r)
  | dropped {i : Nat} {c : CallId} (hk : k = Exchange.homeConnection)
    (hc : b.calls.get? i = some c) (hr : b.exchange.slot c = .abandoned) :
    Drives b k (.reply i) (.drop i)
  | begun {c : CallId} {f : Forward} (hk : f.connection = k)
    (hf : b.exchange.forwards.get? c = some f) :
    Drives b k (.begin c) (.begin (.call f.procedure f.arguments))

/-- Every session that is there takes one step at most. -/
theorem session_of_change {a : BridgeAction} (h : b.Change a b') {k : ConnectionId} {s : Session}
    (hs : b.sessions.get? k = some s) (hk : k < b.nextConnection) :
    ∃ s', b'.sessions.get? k = some s' ∧ (s' = s ∨ ∃ x, b.Drives k a x ∧ s.step x = some s') := by
  -- a step of one session leaves the others
  have hinsert : ∀ {l : ConnectionId} {t t' : Session} {x : SessionAction},
      b.sessions.get? l = some t → t.step x = some t' → (k = l → b.Drives k a x) →
      ∃ s', (b.sessions.insert l t').get? k = some s' ∧
        (s' = s ∨ ∃ x, b.Drives k a x ∧ s.step x = some s') := by
    intro l t t' x ht hstep hdrives
    rw [Table.get?_insert]
    split
    · next hkl =>
      rw [hkl, ht] at hs
      cases Option.some.inj hs
      exact ⟨t', rfl, .inr ⟨x, hdrives hkl, hstep⟩⟩
    · exact ⟨s, hs, .inl rfl⟩
  cases h with
  | within | settled | lost => exact ⟨s, hs, .inl rfl⟩
  | session hx ht hstep =>
    refine hinsert ht hstep fun hkl => ?_
    subst hkl
    exact .own hx
  | heard ht hstep _ | taken ht hstep _ _ => exact hinsert ht hstep .read
  | completed hc hr ht hstep => exact hinsert ht hstep fun hkl => .completed hkl hc hr
  | dropped hc hr ht hstep => exact hinsert ht hstep fun hkl => .dropped hkl hc hr
  | @begun c f t e hf ht _ =>
    exact hinsert ht (rfl : t.step (.begin (.call f.procedure f.arguments)) = some _)
      fun hkl => .begun hkl.symm hf
  | joined =>
    -- the new connection has a number of its own
    refine ⟨s, ?_, .inl rfl⟩
    rw [Table.get?_insert, if_neg (Nat.ne_of_lt hk)]
    exact hs

end Bridge
end Switchboard
