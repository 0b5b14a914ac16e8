import Switchboard.Proofs.Bridge.Steps

/-!
# How calls hang together with requests

A call that is forwarded becomes a request once, and the request is its own for as long as the call
is under way.

* `Bridge.Passage` is what may become of a call that has left the queue; `passage_of_change` is one
  action.
* `Bridge.Wired` is what holds of a bridge in every state: its sessions are in order, its
  connections have sessions, and the requests that calls have become are there. `wired_of_reaches`
  keeps it.
-/

namespace Switchboard

/-- Whether an action makes a call. -/
def BridgeAction.begins (c : CallId) : BridgeAction → Bool
  | .begin k => k = c
  | _ => false

/-- An action makes one call at most. -/
theorem BridgeAction.eq_of_begins {a : BridgeAction} {c c' : CallId} (h : a.begins c = true)
    (h' : a.begins c' = true) : c = c' := by
  cases a with
  | begin k => exact (of_decide_eq_true h).symm.trans (of_decide_eq_true h')
  | _ => exact absurd h (by simp [begins])

namespace Bridge

variable {b b' : Bridge} {a : BridgeAction}

/-! ## One call -/

/-- What becomes by an action of a call that has left the queue. -/
inductive Passage (b : Bridge) (a : BridgeAction) (c : CallId) (b' : Bridge) : Prop
  | kept (ha : a.begins c = false) (hk : b.exchange.CallKept b'.exchange c)
    (hr : b'.requests.get? c = b.requests.get? c)
  /-- Its caller has left, who is nobody on the home session. -/
  | left (ha : a.begins c = false) (hc : c ∉ b.calls.values)
    (hf : b'.exchange.forwards.get? c = b.exchange.forwards.get? c)
    (hr : b'.requests.get? c = b.requests.get? c)
  /-- It becomes the next request on the session of its connection. -/
  | begun {f : Forward} {s : Session} (ha : a.begins c = true)
    (hf : b.exchange.forwards.get? c = some f) (hstage : f.stage = .ready)
    (hs : b.sessions.get? f.connection = some s)
    (hf' : b'.exchange.forwards.get? c = some { f with stage := .calling })
    (hslot : b'.exchange.calls.get? c = b.exchange.calls.get? c)
    (hs' : b'.sessions.get? f.connection = some (s.begin (.call f.procedure f.arguments)))
    (hr : b'.requests.get? c = some s.count)
  | settled {f : Forward} {o : RequestOutcome} (ha : a.begins c = false)
    (hf : b.exchange.forwards.get? c = some f) (hstage : f.stage = .calling)
    (ho : b.outcome? c = some o)
    (hf' : b'.exchange.forwards.get? c
      = some { f with stage := .answering (Exchange.replyOf (returned o)) })
    (hslot : b'.exchange.calls.get? c = b.exchange.calls.get? c)
    (hr : b'.requests.get? c = b.requests.get? c)
  | answered {f : Forward} {reply : Reply} (ha : a.begins c = false)
    (hf : b.exchange.forwards.get? c = some f) (hstage : f.stage = .answering reply)
    (hf' : b'.exchange.forwards.get? c = none)
    (hslot : b'.exchange.calls.get? c = (b.exchange.calls.get? c).map (·.answer reply))
    (hr : b'.requests.get? c = b.requests.get? c)

section Passage

variable {c : CallId} (hlt : c < b.exchange.nextCall) (hno : b.exchange.routes c = [])
include hlt hno

/-- What the exchange does to a call on its own. -/
lemma passage_of_within {x : ExchangeAction} {e : Exchange} (hx : b.isInner x = true)
    (h : b.exchange.step x = some e) : b.Passage (.within x) c { b with exchange := e } := by
  cases ha : x.concerns c with
  | false => exact .kept rfl (Exchange.callKept_of_step (fun _ _ => Nat.ne_of_lt hlt) hno ha h) rfl
  | true =>
    obtain ⟨hm, -, -⟩ := Exchange.callMoved_of_step ha h
    cases hm with
    | left hf => exact .left rfl (by simpa [isInner] using hx) hf rfl
    | begun | settled => exact absurd hx (by simp [isInner])
    | answered hf hstage hf' hs => exact .answered rfl hf hstage hf' hs rfl

/-- What an action does to a call that has left the queue. -/
theorem passage_of_change (h : b.Change a b') : b.Passage a c b' := by
  have hkept : ∀ {x : ExchangeAction} {e : Exchange}, x.concerns c = false →
      b.exchange.step x = some e → b.exchange.CallKept e c := fun ha hx =>
    Exchange.callKept_of_step (fun _ _ => Nat.ne_of_lt hlt) hno ha hx
  cases h with
  | within hx h => exact passage_of_within hlt hno hx h
  | session | heard | completed | dropped => exact .kept rfl {} rfl
  | joined h | lost h => exact .kept rfl (hkept rfl h) rfl
  | @taken _ _ _ g => exact .kept rfl (hkept (x := .invoke g.invocation) rfl rfl) rfl
  | @begun c₀ f s e hf hs h =>
    by_cases hc : c₀ = c
    · subst hc
      obtain ⟨hm, -, -⟩ :=
        Exchange.callMoved_of_step (c := c₀) (by simp [ExchangeAction.concerns]) h
      cases hm with
      | begun hf₀ hstage hf' hslot =>
        rw [hf] at hf₀
        cases Option.some.inj hf₀
        exact .begun (decide_eq_true rfl) hf hstage hs hf' hslot
          ((Table.get?_insert ..).trans (if_pos rfl)) ((Table.get?_insert ..).trans (if_pos rfl))
    · have hne : c ≠ c₀ := fun he => hc he.symm
      exact .kept (decide_eq_false hc) (hkept (by simp [ExchangeAction.concerns, hc]) h)
        ((Table.get?_insert ..).trans (if_neg hne))
  | @settled c₀ o e ho h =>
    by_cases hc : c₀ = c
    · subst hc
      obtain ⟨hm, -, -⟩ :=
        Exchange.callMoved_of_step (c := c₀) (by simp [ExchangeAction.concerns]) h
      cases hm with
      | settled hf hstage hf' hslot => exact .settled rfl hf hstage ho hf' hslot rfl
    · exact .kept rfl (hkept (by simp [ExchangeAction.concerns, hc]) h) rfl

end Passage

/-- A call that has left the queue does not come back. -/
theorem routes_of_change {c : CallId} (hlt : c < b.exchange.nextCall)
    (hno : b.exchange.routes c = []) (h : b.Change a b') :
    c < b'.exchange.nextCall ∧ b'.exchange.routes c = [] := by
  obtain he | ⟨x, hx, -⟩ := exchange_of_change h
  · rw [he]
    exact ⟨hlt, hno⟩
  · refine ⟨Nat.lt_of_lt_of_le hlt (Exchange.nextCall_of_step hx), ?_⟩
    cases ha : x.concerns c with
    | false =>
      exact (Exchange.callKept_of_step (fun _ _ => Nat.ne_of_lt hlt) hno ha hx).routes.trans hno
    | true =>
      obtain ⟨-, -, hq⟩ := Exchange.callMoved_of_step ha hx
      rw [Exchange.routes, hq]
      exact hno

/-! ## The whole bridge -/

/-- What holds of a bridge in every state. -/
structure Wired (b : Bridge) : Prop where
  home : Exchange.homeConnection < b.nextConnection
  present : ∀ k, k < b.nextConnection → ∃ s, b.sessions.get? k = some s
  absent : ∀ k s, b.sessions.get? k = some s → k < b.nextConnection
  session : ∀ k s, b.sessions.get? k = some s → s.Sound ∧ s.Orderly
  bounded : b.exchange.Bounded b.nextConnection
  lined : b.exchange.Lined
  /-- A call that has become a request is past being made. -/
  request : ∀ c n, b.requests.get? c = some n →
    c < b.exchange.nextCall ∧ b.exchange.routes c = [] ∧
      ∀ f, b.exchange.forwards.get? c = some f →
        f.stage ≠ .ready ∧ ∃ s, b.sessions.get? f.connection = some s ∧ n < s.count

/-- The sessions of a bridge after an action are those before it, a step further, and a new one. -/
lemma session_cases (w : b.Wired) (h : b.Change a b') {k : ConnectionId}
    {s' : Session} (hs' : b'.sessions.get? k = some s') :
    (∃ s, b.sessions.get? k = some s ∧ (s' = s ∨ ∃ x, b.Drives k a x ∧ s.step x = some s')) ∨
      (k = b.nextConnection ∧ s' = {} ∧ b'.nextConnection = b.nextConnection + 1) := by
  by_cases hk : k < b.nextConnection
  · obtain ⟨s, hs⟩ := w.present k hk
    obtain ⟨s'', hs'', hstep⟩ := session_of_change h hs hk
    rw [hs'] at hs''
    cases Option.some.inj hs''
    exact .inl ⟨s, hs, hstep⟩
  · -- a session that has not been there is that of a new connection
    right
    have hnone : ∀ {l t}, (b.sessions.insert l t).get? k = some s' → k ≠ l → False :=
      fun hget hne => by
        rw [Table.get?_insert, if_neg hne] at hget
        exact hk (w.absent k s' hget)
    have hne : ∀ {l t}, b.sessions.get? l = some t → k ≠ l := fun ht he =>
      hk (he ▸ w.absent _ _ ht)
    cases h with
    | within | settled | lost => exact absurd (w.absent k s' hs') hk
    | session _ ht _ | heard ht _ _ | taken ht _ _ _ | completed _ _ ht _ | dropped _ _ ht _
    | begun _ ht _ => exact (hnone hs' (hne ht)).elim
    | joined =>
      by_cases hkn : k = b.nextConnection
      · subst hkn
        rw [Table.get?_insert, if_pos rfl] at hs'
        exact ⟨rfl, (Option.some.inj hs').symm, rfl⟩
      · exact (hnone hs' hkn).elim

/-- Sessions make ever more requests. -/
lemma count_le_of_step {s s' : Session} {x : SessionAction} (h : s.step x = some s') :
    s.count ≤ s'.count := by
  obtain he | ⟨demand, -, rfl⟩ := Session.count_of_step h
  · exact Nat.le_of_eq he.symm
  · rw [Session.count_begin]
    exact Nat.le_succ _

/-- The number of connections never falls. -/
lemma nextConnection_of_change (h : b.Change a b') :
    b.nextConnection ≤ b'.nextConnection := by
  cases h with
  | joined => exact Nat.le_succ _
  | _ => exact Nat.le_refl _

/-- Requests that are there stay there. -/
lemma request_of_change (w : b.Wired) (h : b.Change a b') {k : ConnectionId}
    {n : Nat} (hn : ∃ s, b.sessions.get? k = some s ∧ n < s.count) :
    ∃ s, b'.sessions.get? k = some s ∧ n < s.count := by
  obtain ⟨s, hs, hlt⟩ := hn
  obtain ⟨s', hs', rfl | ⟨x, -, hx⟩⟩ := session_of_change h hs (w.absent k s hs)
  · exact ⟨s', hs', hlt⟩
  · exact ⟨s', hs', Nat.lt_of_lt_of_le hlt (count_le_of_step hx)⟩

namespace Wired

variable (w : b.Wired)
include w

/-- The next connection is unknown to the exchange, after every step. -/
lemma bounded_of_change (h : b.Change a b') :
    b'.exchange.Bounded b'.nextConnection := by
  have hinner : ∀ {x : ExchangeAction} {e : Exchange}, (∀ id c, x ≠ .connect id (some c)) →
      b.exchange.step x = some e → e.Bounded b.nextConnection := fun hx h =>
    w.bounded.step (fun id c he => absurd he (hx id c)) h
  cases h with
  | within hx h => exact hinner (fun id c he => absurd hx (by simp [he, isInner])) h
  | session | heard | completed | dropped => exact w.bounded
  | @taken _ _ _ g =>
    exact hinner (x := .invoke g.invocation) (fun id c he => absurd he (by simp)) rfl
  | joined h =>
    have hb := w.bounded.mono (Nat.le_succ b.nextConnection)
    refine hb.step (fun id c he => ?_) h
    have hc : b.nextConnection = c := Option.some.inj (ExchangeAction.connect.inj he).2
    exact hc ▸ Nat.lt_succ_self _
  | begun _ _ h | settled _ h | lost h => exact hinner (fun id c he => absurd he (by simp)) h

/-- A call that has become a request has had its connection before. -/
theorem forward_of_change (h : b.Change a b') {c : CallId} {n : Nat} {f' : Forward}
    (hn : b.requests.get? c = some n) (hf' : b'.exchange.forwards.get? c = some f') :
    f'.stage ≠ .ready ∧
      ∃ f, b.exchange.forwards.get? c = some f ∧ f'.connection = f.connection := by
  obtain ⟨hlt, hno, hf⟩ := w.request c n hn
  cases passage_of_change hlt hno h with
  | kept _ hk _ =>
    have hsame : b.exchange.forwards.get? c = some f' := hk.forward.symm.trans hf'
    exact ⟨(hf f' hsame).1, f', hsame, rfl⟩
  | left _ _ hkept _ =>
    have hsame : b.exchange.forwards.get? c = some f' := hkept.symm.trans hf'
    exact ⟨(hf f' hsame).1, f', hsame, rfl⟩
  | begun _ hready hstage => exact absurd hstage (hf _ hready).1
  | settled _ hcalling _ _ hnew _ _ =>
    rw [hf'] at hnew
    rw [Option.some.inj hnew]
    exact ⟨by simp, _, hcalling, rfl⟩
  | answered _ _ _ hnone => exact absurd (hnone.symm.trans hf') (by simp)

/-- A request of a call has been there, or it is new on the session of the call's connection. -/
theorem request_cases (h : b.Change a b') {c : CallId} {n : Nat}
    (hn : b'.requests.get? c = some n) :
    b.requests.get? c = some n ∨
      (a.begins c = true ∧ c < b.exchange.nextCall ∧ b.exchange.routes c = [] ∧
      ∃ (f : Forward) (s : Session),
        b'.exchange.forwards.get? c = some { f with stage := .calling } ∧
        b.sessions.get? f.connection = some s ∧ n = s.count ∧
        b'.sessions.get? f.connection = some (s.begin (.call f.procedure f.arguments))) := by
  by_cases hold : b.requests.get? c = some n
  · exact .inl hold
  · right
    -- a request is new when its call begins, and then the call is in hand
    have hforward : ∃ f, b.exchange.forwards.get? c = some f := by
      cases h with
      | @begun c₀ f s e hf hs h =>
        by_cases hc : c = c₀
        · exact ⟨f, hc ▸ hf⟩
        · exact absurd (((Table.get?_insert ..).trans (if_neg hc)).symm.trans hn) hold
      | _ => exact absurd hn hold
    obtain ⟨f, hf⟩ := hforward
    have hlt := w.lined.lt_of_forward hf
    have hno := w.lined.routes_of_forward hf
    cases passage_of_change hlt hno h with
    | kept _ _ hr | left _ _ _ hr | settled _ _ _ _ _ _ hr | answered _ _ _ _ _ hr =>
      exact absurd (hr.symm.trans hn) hold
    | @begun f s ha _ _ hs hf' _ hs' hr =>
      exact ⟨ha, hlt, hno, f, s, hf', hs, Option.some.inj (hn.symm.trans hr), hs'⟩

/-- A call with a request is not ready any more, and its request has been made. -/
lemma request_step (h : b.Change a b') {c : CallId} {n : Nat}
    (hn : b'.requests.get? c = some n) :
    c < b'.exchange.nextCall ∧ b'.exchange.routes c = [] ∧
      ∀ f, b'.exchange.forwards.get? c = some f →
        f.stage ≠ .ready ∧ ∃ s, b'.sessions.get? f.connection = some s ∧ n < s.count := by
  obtain hold | ⟨-, hlt, hno, f, s, hf, -, rfl, hs'⟩ := w.request_cases h hn
  · obtain ⟨hlt, hno, hrequest⟩ := w.request c n hold
    obtain ⟨hlt', hno'⟩ := routes_of_change hlt hno h
    refine ⟨hlt', hno', fun f' hf' => ?_⟩
    obtain ⟨hstage, f, hf, hconnection⟩ := w.forward_of_change h hold hf'
    rw [hconnection]
    exact ⟨hstage, request_of_change w h (hrequest f hf).2⟩
  · obtain ⟨hlt', hno'⟩ := routes_of_change hlt hno h
    refine ⟨hlt', hno', fun f' hf' => ?_⟩
    rw [hf] at hf'
    rw [← Option.some.inj hf']
    refine ⟨by simp, _, hs', ?_⟩
    rw [Session.count_begin]
    exact Nat.lt_succ_self _

/-- Whatever happens, a bridge stays in order. -/
theorem step (h : b.Change a b') : b'.Wired := by
  have hnext := nextConnection_of_change h
  refine ⟨Nat.lt_of_lt_of_le w.home hnext, fun k hk => ?_, fun k s' hs' => ?_, fun k s' hs' => ?_,
    w.bounded_of_change h, ?_, fun c n hn => w.request_step h hn⟩
  · by_cases hold : k < b.nextConnection
    · obtain ⟨s, hs⟩ := w.present k hold
      obtain ⟨s', hs', -⟩ := session_of_change h hs hold
      exact ⟨s', hs'⟩
    · cases h with
      | joined =>
        have hkn : k = b.nextConnection :=
          Nat.le_antisymm (Nat.le_of_lt_succ hk) (Nat.le_of_not_lt hold)
        exact ⟨{}, (Table.get?_insert ..).trans (if_pos hkn)⟩
      | _ => exact absurd hk hold
  · obtain ⟨s, hs, -⟩ | ⟨rfl, -, hjoined⟩ := session_cases w h hs'
    · exact Nat.lt_of_lt_of_le (w.absent k s hs) hnext
    · rw [hjoined]
      exact Nat.lt_succ_self _
  · obtain ⟨s, hs, rfl | ⟨x, -, hx⟩⟩ | ⟨-, rfl, -⟩ := session_cases w h hs'
    · exact w.session k s' hs
    · obtain ⟨hsound, horderly⟩ := w.session k s hs
      exact ⟨hsound.step hx, horderly.step hsound hx⟩
    · exact ⟨Session.sound_empty, Session.orderly_empty⟩
  · obtain he | ⟨x, hx, -⟩ := exchange_of_change h
    · rw [he]
      exact w.lined
    · exact w.lined.step hx

end Wired

end Bridge
end Switchboard
