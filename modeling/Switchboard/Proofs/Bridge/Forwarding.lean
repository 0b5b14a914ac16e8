import Switchboard.Proofs.Bridge.Course

/-!
# The way of a forwarded call

A call that the registry has accepted is made once, on the connection of its link. The request that
it becomes is nobody else's, and the call is answered what the request returns.

* `Bridge.Owns` is the request of a call, and `Owns.step` what an action makes of it.
* `Bridge.Way` is how far a call has come, and `Way.step` takes it further.
-/

namespace Switchboard
namespace Bridge

variable {b b' : Bridge} {a : BridgeAction} {c : CallId} {f : Forward} {l : List BridgeAction}

/-- What a session reads, the bridge takes from its stream. -/
lemma line_of_drives {k : ConnectionId} {x : SessionAction} (hd : b.Drives k a x)
    {text : List Char} (hx : x = .read (.line text)) : a.line? = some (k, text) := by
  subst hx
  cases hd with
  | own => rfl
  | read hk =>
    rw [hk]
    rfl

/-- The request with number `n` that the call `c` has become: it asks for what the call asks for, it
is no other call's, and it has no reply that has not been read after the call was accepted. -/
structure Owns (b : Bridge) (c : CallId) (f : Forward) (l : List BridgeAction) (n : Nat)
    (t : Session) (q : Request) : Prop where
  request : b.requests.get? c = some n
  session : b.sessions.get? f.connection = some t
  made : t.requests.get? n = some q
  demand : q.demand = .call f.procedure f.arguments
  only : ∀ c' f', c' ≠ c → b.exchange.forwards.get? c' = some f' →
    f'.connection = f.connection → b.requests.get? c' ≠ some n
  arrived : ∀ reply, q.reply = .arrived reply → ∃ a ∈ l, ∃ text,
    a.line? = some (f.connection, text) ∧ frameOf? text = some reply
  once : l.countP (·.begins c) = 1

namespace Owns

variable {n : Nat} {t : Session} {q : Request} (o : b.Owns c f l n t q) (w : b.Wired)
  (h : b.Change a b')
include o w h

/-- Other calls have requests of their own. -/
lemma only_of_change {c' : CallId} {f' : Forward} (hne : c' ≠ c)
    (hf' : b'.exchange.forwards.get? c' = some f') (hk : f'.connection = f.connection) :
    b'.requests.get? c' ≠ some n := by
  intro hn
  obtain hold | ⟨-, -, -, f₀, s, hf₀, hs, hcount, -⟩ := w.request_cases h hn
  · obtain ⟨-, f₀, hf₀, hconnection⟩ := w.forward_of_change h hold hf'
    exact o.only c' f₀ hne hf₀ (hconnection.symm.trans hk) hold
  · -- a request that is new has a number that has not been used
    rw [hf'] at hf₀
    have hconnection : f₀.connection = f.connection := by
      rw [← hk, Option.some.inj hf₀]
    rw [hconnection, o.session] at hs
    have hlt := ((w.session _ _ o.session).1.proper n q o.made).lt
    rw [hcount, Option.some.inj hs] at hlt
    exact Nat.lt_irrefl _ hlt

/-- The request goes on, and stays as it is when it is done. -/
theorem step (hr : b'.requests.get? c = b.requests.get? c) (ha : a.begins c = false) :
    ∃ t' q', b'.Owns c f (l ++ [a]) n t' q' ∧
      ∀ out, q.stage = .done out → q'.stage = .done out := by
  have honce : (l ++ [a]).countP (·.begins c) = 1 := by
    rw [List.countP_append, o.once, List.countP_singleton, ha]
    rfl
  -- a reply that has been read stays in the history
  have hlater : ∀ reply, q.reply = .arrived reply → ∃ a' ∈ l ++ [a], ∃ text,
      a'.line? = some (f.connection, text) ∧ frameOf? text = some reply := by
    intro reply hreply
    obtain ⟨a', ha', htext⟩ := o.arrived reply hreply
    exact ⟨a', List.mem_append_left _ ha', htext⟩
  have honly : ∀ c' f', c' ≠ c → b'.exchange.forwards.get? c' = some f' →
      f'.connection = f.connection → b'.requests.get? c' ≠ some n :=
    fun _ _ => o.only_of_change w h
  obtain ⟨t', ht', hstep⟩ := session_of_change h o.session (w.absent _ _ o.session)
  rcases hstep with rfl | ⟨x, hd, hx⟩
  · exact ⟨t', q, ⟨hr.trans o.request, ht', o.made, o.demand, honly, hlater, honce⟩, fun _ => id⟩
  · obtain ⟨q', hq', hon⟩ :=
      Session.onward_of_step (w.session _ _ o.session).1 o.made hx
    refine ⟨t', q', ⟨hr.trans o.request, ht', hq', hon.demand.trans o.demand, honly, ?_, honce⟩, ?_⟩
    · intro reply hreply
      rcases hon.reply with hsame | ⟨-, hnever | ⟨text, frame, hread, hframe, harrived⟩⟩
      · exact hlater reply (hsame.symm.trans hreply)
      · exact absurd (hnever.symm.trans hreply) (by simp)
      · -- the reply is in the line that is read now
        rw [hreply, ReplyFrame.arrived.injEq] at harrived
        refine ⟨a, List.mem_append_right _ (List.mem_singleton_self a), text, ?_, ?_⟩
        · exact line_of_drives hd hread
        · rw [harrived]
          exact hframe
    · intro out hdone
      have hstage := hon.stage
      rw [hdone] at hstage
      exact hstage.done

end Owns

/-- A call that is made now has a request of its own. -/
lemma owns_of_begun {s : Session} (w : b.Wired) (h : b.Change a b') (ha : a.begins c = true)
    (hl : l.countP (·.begins c) = 0) (hs : b.sessions.get? f.connection = some s)
    (hs' : b'.sessions.get? f.connection = some (s.begin (.call f.procedure f.arguments)))
    (hr : b'.requests.get? c = some s.count) :
    b'.Owns c f (l ++ [a]) s.count (s.begin (.call f.procedure f.arguments))
      { demand := .call f.procedure f.arguments } := by
  refine ⟨hr, hs', Session.get?_begin_count s _, rfl, ?_, fun reply hreply => ?_, ?_⟩
  · intro c' f' hne hforward hk hn
    obtain hold | ⟨ha', -⟩ := w.request_cases h hn
    · -- an older request has a lower number
      obtain ⟨-, f₁, hf₁, hconnection⟩ := w.forward_of_change h hold hforward
      obtain ⟨-, s₁, hs₁, hlt⟩ := (w.request c' s.count hold).2.2 f₁ hf₁
      rw [← hconnection, hk, hs] at hs₁
      rw [Option.some.inj hs₁] at hlt
      exact Nat.lt_irrefl _ hlt
    · exact hne (BridgeAction.eq_of_begins ha' ha)
  · exact absurd hreply (by simp)
  · rw [List.countP_append, hl, List.countP_singleton, ha]
    rfl

/-- How far a call has come since it was accepted. -/
inductive Way (b : Bridge) (c : CallId) (f : Forward) (l : List BridgeAction) : Prop
  | ready (hf : b.exchange.forwards.get? c = some { f with stage := .ready })
    (hr : b.requests.get? c = none) (hslot : b.exchange.calls.get? c = some .waiting)
    (hl : l.countP (·.begins c) = 0) (hs : ∃ s, b.sessions.get? f.connection = some s)
  | calling {n : Nat} {t : Session} {q : Request}
    (hf : b.exchange.forwards.get? c = some { f with stage := .calling })
    (o : b.Owns c f l n t q) (hslot : b.exchange.calls.get? c = some .waiting)
  | answering {n : Nat} {t : Session} {q : Request} {out : RequestOutcome}
    (hf : b.exchange.forwards.get? c
      = some { f with stage := .answering (Exchange.replyOf (returned out)) })
    (o : b.Owns c f l n t q) (hdone : q.stage = .done out)
    (hslot : b.exchange.calls.get? c = some .waiting)
  | answered {n : Nat} {t : Session} {q : Request} {out : RequestOutcome}
    (hf : b.exchange.forwards.get? c = none) (o : b.Owns c f l n t q)
    (hdone : q.stage = .done out)
    (hslot : b.exchange.calls.get? c = some (.answered (Exchange.replyOf (returned out))))

namespace Way

/-- A call is at one stage. -/
lemma stage_unique {f₀ : Forward} {stage stage' : ForwardStage}
    (hf : b.exchange.forwards.get? c = some { f with stage })
    (hf₀ : b.exchange.forwards.get? c = some f₀) (hstage : f₀.stage = stage') :
    stage = stage' := by
  rw [hf] at hf₀
  rw [← hstage, ← Option.some.inj hf₀]

/-- The outcome of the request is the outcome of the call. -/
lemma stage_of_outcome {n : Nat} {t : Session} {q : Request} {out : RequestOutcome}
    {stage : ForwardStage} (o : b.Owns c f l n t q)
    (hf : b.exchange.forwards.get? c = some { f with stage }) (ho : b.outcome? c = some out) :
    q.stage = .done out := by
  simp only [outcome?, hf, o.request, o.session, Option.bind_some, o.made] at ho
  split at ho
  · next hq =>
    rw [← Option.some.inj ho, Option.some.inj hq]
  · exact absurd ho (by simp)

variable (y : b.Way c f l)
include y

/-- Nobody gives the call up. -/
theorem slot : ∃ v, b.exchange.calls.get? c = some v ∧ v ≠ .abandoned := by
  cases y with
  | ready _ _ hslot _ _ | calling _ _ hslot | answering _ _ _ hslot => exact ⟨_, hslot, by simp⟩
  | answered _ _ _ hslot => exact ⟨_, hslot, by simp⟩

variable (w : b.Wired) (hlt : c < b.exchange.nextCall) (hno : b.exchange.routes c = [])
  (hc : c ∈ b.calls.values) (h : b.Change a b')
include hlt hno hc h

/-- What a call has been answered stays. -/
theorem slot_of_change : b'.exchange.calls.get? c = b.exchange.calls.get? c ∨
    b.exchange.calls.get? c = some .waiting := by
  cases y with
  | ready _ _ hslot | calling _ _ hslot | answering _ _ _ hslot => exact .inr hslot
  | answered hf =>
    cases passage_of_change hlt hno h with
    | kept _ hk => exact .inl hk.slot
    | left _ hnot => exact absurd hc hnot
    | begun _ hf₀ | settled _ hf₀ | answered _ hf₀ => exact absurd (hf.symm.trans hf₀) (by simp)

include w

/-- An action takes a call further, or leaves it where it is. -/
theorem step : b'.Way c f (l ++ [a]) := by
  have hpassage := passage_of_change hlt hno h
  cases y with
  | ready hf hr hslot hl hs =>
    cases hpassage with
    | kept ha hk hr' =>
      refine .ready (hk.forward.trans hf) (hr'.trans hr) (hk.slot.trans hslot) ?_ ?_
      · rw [List.countP_append, hl, List.countP_singleton, ha]
        rfl
      · obtain ⟨s, hs⟩ := hs
        obtain ⟨s', hs', -⟩ := session_of_change h hs (w.absent _ _ hs)
        exact ⟨s', hs'⟩
    | left _ hnot => exact absurd hc hnot
    | begun ha hf₀ _ hs hf' hslot' hs' hr' =>
      -- the call becomes a request
      rw [hf] at hf₀
      cases Option.some.inj hf₀
      exact .calling hf' (owns_of_begun w h ha hl hs hs' hr') (hslot'.trans hslot)
    | settled _ hf₀ hstage | answered _ hf₀ hstage =>
      exact absurd (stage_unique hf hf₀ hstage) (by simp)
  | calling hf o hslot =>
    cases hpassage with
    | kept ha hk hr' =>
      obtain ⟨t', q', o', -⟩ := o.step w h hr' ha
      exact .calling (hk.forward.trans hf) o' (hk.slot.trans hslot)
    | left _ hnot => exact absurd hc hnot
    | begun _ hf₀ hstage | answered _ hf₀ hstage =>
      exact absurd (stage_unique hf hf₀ hstage) (by simp)
    | settled ha hf₀ _ hout hf' hslot' hr' =>
      -- the request has returned, and its outcome is that of the call
      rw [hf] at hf₀
      cases Option.some.inj hf₀
      obtain ⟨t', q', o', hdone⟩ := o.step w h hr' ha
      exact .answering hf' o' (hdone _ (stage_of_outcome o hf hout)) (hslot'.trans hslot)
  | answering hf o hdone hslot =>
    cases hpassage with
    | kept ha hk hr' =>
      obtain ⟨t', q', o', hkept⟩ := o.step w h hr' ha
      exact .answering (hk.forward.trans hf) o' (hkept _ hdone) (hk.slot.trans hslot)
    | left _ hnot => exact absurd hc hnot
    | begun _ hf₀ hstage | settled _ hf₀ hstage =>
      exact absurd (stage_unique hf hf₀ hstage) (by simp)
    | answered ha hf₀ hstage hf' hslot' hr' =>
      -- the caller is told what the request has returned
      cases ForwardStage.answering.inj (stage_unique hf hf₀ hstage)
      obtain ⟨t', q', o', hkept⟩ := o.step w h hr' ha
      refine .answered hf' o' (hkept _ hdone) ?_
      rw [hslot', hslot]
      rfl
  | answered hf o hdone hslot =>
    cases hpassage with
    | kept ha hk hr' =>
      obtain ⟨t', q', o', hkept⟩ := o.step w h hr' ha
      exact .answered (hk.forward.trans hf) o' (hkept _ hdone) (hk.slot.trans hslot)
    | left _ hnot => exact absurd hc hnot
    | begun _ hf₀ | settled _ hf₀ | answered _ hf₀ =>
      -- nothing is left to be done for it
      exact absurd (hf.symm.trans hf₀) (by simp)

end Way
end Bridge
end Switchboard
