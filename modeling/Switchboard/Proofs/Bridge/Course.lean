import Switchboard.Proofs.Bridge.Wiring
import Switchboard.Proofs.Session.Answers

/-!
# The course of a bridge, and an invocation in it

A course is a list of actions that follow each other. The router keeps to its numbers: it brings no
invocation under the number of one that still waits for its answer.

* `Bridge.course` performs the actions, and `course_induction` carries what each of them keeps to
  the end.
* `Bridge.Placed` is an invocation on the home session that has become a call: it is answered what
  the call is, once. `Placed.step` keeps it.
-/

namespace Switchboard

/-- The line that an action takes from the stream of a session. -/
def BridgeAction.line? : BridgeAction → Option (ConnectionId × List Char)
  | .read (.line text) => some (Exchange.homeConnection, text)
  | .session k (.read (.line text)) => some (k, text)
  | _ => none

/-- The number of the invocation that an action brings to the home session. -/
def BridgeAction.invokes? : BridgeAction → Option UInt64
  | .read (.line text) => (frameOf? text).bind Frame.invokes?
  | _ => none

namespace Bridge

/-- Whether the router may do its part of an action: it uses no number under which an invocation
waits for its answer. -/
def admits (b : Bridge) (a : BridgeAction) : Bool :=
  match a.invokes?, b.sessions.get? Exchange.homeConnection with
  | some r, some s => s.given.all fun g => g.request ≠ r || g.told
  | _, _ => true

/-- Performs actions one after the other, if all of them are possible. -/
def course (b : Bridge) : List BridgeAction → Option Bridge
  | [] => some b
  | a :: l => if b.admits a then (b.step a).bind fun b => b.course l else none

variable {b b' : Bridge} {a : BridgeAction}

/-- The router uses no number under which an invocation waits. -/
theorem told_of_admits (ha : b.admits a = true) {r : UInt64} (hr : a.invokes? = some r)
    {s : Session} (hs : b.sessions.get? Exchange.homeConnection = some s) {g : Given}
    (hg : g ∈ s.given) (hrequest : g.request = r) : g.told = true := by
  simp only [admits, hr, hs, List.all_eq_true] at ha
  simpa [hrequest] using ha g hg

/-- What the home session reads, the bridge does. -/
lemma invokes_of_drives {x : SessionAction} (hd : b.Drives Exchange.homeConnection a x)
    {text : List Char} {f : Frame} (hx : x = .read (.line text)) (hf : frameOf? text = some f) :
    a.invokes? = f.invokes? := by
  subst hx
  cases hd with
  | own hown => exact absurd hown (by simp [isOwn])
  | read => exact (congrArg (·.bind Frame.invokes?) hf : _)

/-- The invocation with number `i` is the call `c`. It has been answered nothing else than the call
has. -/
structure Placed (b : Bridge) (c : CallId) (old : List Frame) (i : Nat) (r : UInt64) (alone : Prop)
    (s : Session) (g : Given) : Prop where
  home : b.sessions.get? Exchange.homeConnection = some s
  call : b.calls.get? i = some c
  ledger : s.Ledger old i r alone g
  slot : g.slot = .waiting ∨ b.exchange.calls.get? c = some g.slot

namespace Placed

variable {c : CallId} {old : List Frame} {i : Nat} {r : UInt64} {alone alone' : Prop}
  {s s' : Session}
  {g g' : Given} (p : b.Placed c old i r alone s g)
include p

lemma lt : i < s.given.length := (List.getElem?_eq_some_iff.1 p.ledger.given).1

/-- The call of an invocation is not forgotten, and nobody else's call takes its place. -/
lemma call_of_change (h : b.Change a b') : b'.calls.get? i = some c := by
  cases h with
  | @taken _ s₀ _ _ hs =>
    rw [p.home] at hs
    cases Option.some.inj hs
    exact (Table.get?_insert ..).trans ((if_neg (Nat.ne_of_lt p.lt)).trans p.call)
  | _ => exact p.call

/-- What the invocation has been answered is not changed any more. -/
lemma slot_of_kept {v v' : ReplySlot} (hv : b.exchange.calls.get? c = some v)
    (hv' : b'.exchange.calls.get? c = some v') (hkept : v' = v ∨ v = .waiting) :
    g.slot = .waiting ∨ b'.exchange.calls.get? c = some g.slot := by
  rcases p.slot with hw | hg
  · exact .inl hw
  · rw [hv, Option.some.injEq] at hg
    rcases hkept with hk | hk
    · right
      rw [hv', hk, hg]
    · left
      rw [← hg, hk]

/-- The invocation is answered what its call is, and nothing else. -/
lemma slot_of_onward {x : SessionAction} (hd : b.Drives Exchange.homeConnection a x)
    (ho : g.Onward x i g') {v v' : ReplySlot} (hv : b.exchange.calls.get? c = some v)
    (hne : v ≠ .abandoned) (hv' : b'.exchange.calls.get? c = some v')
    (hkept : v' = v ∨ v = .waiting) :
    g'.slot = .waiting ∨ b'.exchange.calls.get? c = some g'.slot := by
  have hslot : b.exchange.slot c = v := by rw [Exchange.slot, hv, Option.getD_some]
  -- the answer that the session gets is that of this call, and the slot had it before
  have hcall : ∀ {c'}, b.calls.get? i = some c' → c' = c := fun hc' =>
    Option.some.inj (hc'.symm.trans p.call)
  cases ho with
  | kept => exact p.slot_of_kept hv hv' hkept
  | told => exact p.slot_of_kept hv hv' hkept
  | completed reply hx =>
    subst hx
    cases hd with
    | own hown => exact absurd hown (by simp [isOwn, p.call])
    | completed _ hc' hr =>
      rw [hcall hc', hslot] at hr
      have hv'' : v' = .answered reply := by
        rcases hkept with hk | hk
        · rw [hk, hr]
        · exact absurd (hr.symm.trans hk) (by simp)
      right
      rw [hv', hv'']
      rcases p.slot with hw | hg
      · rw [hw]
        rfl
      · rw [hv, Option.some.injEq] at hg
        rw [← hg, hr]
        rfl
  | dropped hx =>
    subst hx
    cases hd with
    | own hown => exact absurd hown (by simp [isOwn, p.call])
    | dropped _ hc' hr =>
      rw [hcall hc', hslot] at hr
      exact absurd hr hne

/-- Whatever happens to the bridge, the invocation stays where it is. -/
theorem step (w : b.Wired) (ha : b.admits a = true) (h : b.Change a b') {v v' : ReplySlot}
    (hv : b.exchange.calls.get? c = some v) (hne : v ≠ .abandoned)
    (hv' : b'.exchange.calls.get? c = some v') (hkept : v' = v ∨ v = .waiting)
    (halone : alone' → alone ∧ a.invokes? ≠ some r) :
    ∃ s' g', b'.Placed c old i r alone' s' g' := by
  obtain ⟨s', hs', hstep⟩ := session_of_change h p.home w.home
  rcases hstep with rfl | ⟨x, hd, hx⟩
  · have hl := p.ledger.mono fun hlone => (halone hlone).1
    exact ⟨s', g, hs', p.call_of_change h, hl, p.slot_of_kept hv hv' hkept⟩
  · obtain ⟨g', hg', ho⟩ := Session.onward_given p.ledger.given hx
    refine ⟨s', g', hs', p.call_of_change h, ?_, p.slot_of_onward hd ho hv hne hv' hkept⟩
    refine p.ledger.step hx ho (fun hlone => (halone hlone).1) (fun text f hread hf hr => ?_) hg'
    have hinvokes : a.invokes? = some r := (invokes_of_drives hd hread hf).trans hr
    refine ⟨told_of_admits ha hinvokes p.home ?_ p.ledger.request, fun hlone => ?_⟩
    · exact List.mem_of_getElem? p.ledger.given
    · exact (halone hlone).2 hinvokes

end Placed
end Bridge
end Switchboard
