import Switchboard.Proofs.Bridge.Rest

/-!
# Invocations are relayed

An invocation that the home session hands to the registry, and that the registry accepts, becomes
one call on the session of the domain that it names. What that call is answered goes back to the
invocation as it is, and to no other.

* `relay` is what a reply makes of an invocation.
* `Bridge.Relayed` is what has become of an invocation, and `relayed_of_start` says that it holds
  whatever else happens, before and after.
-/

namespace Switchboard

/-- What the reply to a forwarded call makes of the invocation with number `r`. -/
def relay (r : UInt64) : Frame → Frame
  | .result _ args kwargs => .yield r args kwargs
  | .error _ message => .error r message
  | reply => .error r (SessionError.protocol (.unexpectedReply .call reply)).message

/-- What an invocation is answered for the sake of the request with number `n`: what its reply says,
or that the session is lost. Without a reply the number of the request may also have been needed for
another one. -/
inductive Request.Answers (q : Request) (n : Nat) (t : Session) (r : UInt64) : Frame → Prop
  | relayed {reply : Frame} (h : q.reply = .arrived reply)
    (hr : reply.replyTo = some (Session.requestId n))
    (hsent : t.count ≤ 2 ^ 64 → t.writer = .working →
      t.asked n = [q.demand.frame (Session.requestId n)]) : Answers q n t r (relay r reply)
  | lost (h : t.lost = true ∨ n + 2 ^ 64 < t.count) :
    Answers q n t r (.error r SessionError.disconnected.message)

namespace Bridge

/-- What has become of the invocation with number `i` on the home session, for which the router uses
the number `r`. It is the call `c`, which was accepted to go the way of `f`; `l` has happened since.
-/
structure Relayed (b : Bridge) (c : CallId) (f : Forward) (l : List BridgeAction) (old : List Frame)
    (i : Nat) (r : UInt64) (alone : Prop) (s : Session) (g : Given) : Prop where
  home : b.sessions.get? Exchange.homeConnection = some s
  given : s.given[i]? = some g
  /-- The call is made once at most, as a request that is no other call's. -/
  made : (b.requests.get? c = none ∧ l.countP (·.begins c) = 0) ∨ ∃ n t q, b.Owns c f l n t q
  /-- That request has one frame at most, which names the procedure and carries the arguments. -/
  sent : ∀ n t q, b.Owns c f l n t q → t.count ≤ 2 ^ 64 →
    q.Sent n (t.writer = .working) (t.asked n)
  /-- Before it is answered nothing is said under its number. -/
  silent : g.told = false →
    (s.told r).Sublist old ∧ (s.writer = .working → s.told r = old)
  /-- Its answer is that of its own request, and is given once. -/
  answered : g.told = true → ∃ n t q x later, b.Owns c f l n t q ∧ q.Answers n t r x ∧
    (s.told r).Sublist (old ++ x :: later) ∧
    (s.writer = .working → s.told r = old ++ x :: later) ∧ (alone → later = [])
  /-- When nothing is left to be done it has been answered, unless its call still waits for a reply
  on a session that is not lost. -/
  rest : b.AtRest → (s.writer = .working → s.outbound = []) ∧
    (g.told = true ∨ ∃ n t q, b.Owns c f l n t q ∧ q.stage = .waiting ∧ q.reply = .awaited ∧
      t.lost = false ∧ t.writer = .working ∧ t.outbound = [])
  /-- That comes about if nothing happens from outside. -/
  settles : ∃ l' b', (∀ a ∈ l', BridgeAction.isOwn a = true) ∧ b.course l' = some b' ∧ b'.AtRest

variable {b b' : Bridge} {a : BridgeAction} {c : CallId} {i : Nat} {r : UInt64} {old : List Frame}

lemma mem_calls {c : CallId} (h : b.calls.get? i = some c) : c ∈ b.calls.values :=
  List.mem_map.2 ⟨(i, c), Table.mem_entries_iff.2 h, rfl⟩

/-! ## In the queue -/

/-- An invocation whose call has been accepted. -/
structure Accepted (b : Bridge) (c : CallId) (f : Forward) (l : List BridgeAction)
    (old : List Frame) (i : Nat) (r : UInt64) (alone : Prop) (s : Session) (g : Given) : Prop where
  wired : b.Wired
  lt : c < b.exchange.nextCall
  taken : b.exchange.routes c = []
  way : b.Way c f l
  placed : b.Placed c old i r alone s g

namespace Accepted

variable {f : Forward} {l : List BridgeAction} {alone alone' : Prop} {s : Session} {g : Given}
  (p : b.Accepted c f l old i r alone s g)
include p

/-- Whatever happens to the bridge, the call goes its way. -/
theorem step (ha : b.admits a = true) (h : b.Change a b')
    (halone : alone' → alone ∧ a.invokes? ≠ some r) :
    ∃ s' g', b'.Accepted c f (l ++ [a]) old i r alone' s' g' := by
  have hc := mem_calls p.placed.call
  obtain ⟨hlt, hno⟩ := routes_of_change p.lt p.taken h
  have hway := p.way.step p.wired p.lt p.taken hc h
  obtain ⟨v, hv, hne⟩ := p.way.slot
  obtain ⟨v', hv', -⟩ := hway.slot
  have hkept : v' = v ∨ v = .waiting := by
    have hslot := p.way.slot_of_change p.lt p.taken hc h
    rw [hv, hv'] at hslot
    exact hslot.imp Option.some.inj Option.some.inj
  obtain ⟨s', g', p'⟩ := p.placed.step p.wired ha h hv hne hv' hkept halone
  exact ⟨s', g', p.wired.step h, hlt, hno, hway, p'⟩

omit p in
/-- What an outcome makes of the invocation. -/
lemma answer_of_interpret {g : Given} {reply : Frame} {procedure : String} {arguments : CallResult}
    (hr : g.request = r) (hslot : g.slot = .answered (Exchange.replyOf (returned
      ((Demand.call procedure arguments).kind.interpret reply)))) :
    g.answer? = some (relay r reply) := by
  subst hr
  unfold Given.answer?
  rw [hslot]
  cases reply <;> rfl

/-- The answer of an invocation is that of its request. -/
theorem answers (ht : g.told = true) : ∃ n t q x, b.Owns c f l n t q ∧ q.Answers n t r x ∧
    g.answer? = some x := by
  have hdone := p.placed.ledger.finished ht
  have hslot : b.exchange.calls.get? c = some g.slot := by
    refine p.placed.slot.resolve_left fun hw => ?_
    rw [hw] at hdone
    exact absurd hdone (by decide)
  cases p.way with
  | ready _ _ hwaiting | calling _ _ hwaiting | answering _ _ _ hwaiting =>
    rw [hslot, Option.some.injEq] at hwaiting
    rw [hwaiting] at hdone
    exact absurd hdone (by decide)
  | @answered n t q out _ o hout hanswered =>
    rw [hslot, Option.some.injEq] at hanswered
    obtain ⟨hsound, horderly⟩ := p.wired.session _ _ o.session
    have hproper := hsound.proper n q o.made
    have hrequest := p.placed.ledger.request
    rcases hproper.done out hout with ⟨reply, hreply, rfl⟩ | ⟨rfl, hlost⟩
    · refine ⟨n, t, q, relay r reply, o, .relayed hreply (hproper.arrived reply hreply) ?_, ?_⟩
      · intro hle hw
        have hsent := horderly.sent hle n q o.made
        rw [Request.Sent, hout] at hsent
        refine (hsent.2 hw).resolve_right fun hx => ?_
        -- no reply says that the session is lost
        rw [o.demand] at hx
        cases reply <;> exact absurd hx (by simp [Demand.kind, RequestKind.interpret])
      · rw [o.demand] at hanswered
        exact answer_of_interpret hrequest hanswered
    · refine ⟨n, t, q, _, o, .lost hlost, ?_⟩
      rw [Given.answer?, hanswered, ← hrequest]
      rfl

/-- When nothing is left to be done, the call waits for its reply or the invocation is answered. -/
theorem rest (h : b.AtRest) : g.told = true ∨ ∃ n t q, b.Owns c f l n t q ∧ q.stage = .waiting ∧
    q.reply = .awaited ∧ t.lost = false ∧ t.writer = .working ∧ t.outbound = [] := by
  cases p.way with
  | ready hf hr _ _ hs =>
    obtain ⟨t, ht⟩ := hs
    exact (h.not_ready hf ht hr).elim
  | @calling n t q hf o _ =>
    have hsound := (p.wired.session _ _ o.session).1
    have hrest := h.session o.session
    rcases hrest.request_cases hsound o.made with ⟨hstage, hreply⟩ | ⟨out, hout⟩
    · exact .inr ⟨n, t, q, o, hstage, hreply, hrest.alive_of_waiting hsound o.made hstage hreply⟩
    · have houtcome : b.outcome? c = some out := by
        obtain ⟨demand, stage, reply⟩ := q
        cases hout
        simp only [outcome?, hf, o.request, o.session, Option.bind_some, o.made]
      exact (h.not_calling hf houtcome).elim
  | answering hf _ _ _ => exact (h.not_answering hf).elim
  | answered _ _ _ hslot => exact .inl (h.told_of_answered p.placed hslot)

/-- What has become of the invocation. -/
theorem relayed : b.Relayed c f l old i r alone s g := by
  have hl := p.placed.ledger
  refine ⟨p.placed.home, hl.given, ?_, ?_, ?_, ?_, ?_, settles p.wired⟩
  · cases p.way with
    | ready _ hr _ hl _ => exact .inl ⟨hr, hl⟩
    | calling _ o _ | answering _ o _ _ | answered _ o _ _ => exact .inr ⟨_, _, _, o⟩
  · intro n t q o hle
    exact (p.wired.session _ _ o.session).2.sent hle n q o.made
  · intro ht
    obtain ⟨later, hsub, heq, hlater⟩ := hl.frames
    have hown : g.own = [] := by simp [Given.own, ht]
    rw [hown, hlater (.inl ht), List.append_nil, List.append_nil] at hsub heq
    exact ⟨hsub, heq⟩
  · intro ht
    obtain ⟨n, t, q, x, o, hx, hanswer⟩ := p.answers ht
    obtain ⟨later, hsub, heq, hlater⟩ := hl.frames
    have hown : g.own = [x] := by simp [Given.own, ht, hanswer]
    rw [hown] at hsub heq
    exact ⟨n, t, q, x, later, o, hx, hsub, heq, fun halone => hlater (.inr halone)⟩
  · intro hrest
    exact ⟨(hrest.session p.placed.home).outbound_eq_nil, p.rest hrest⟩

end Accepted

/-! ## From end to end -/

/-- A line that holds a frame. -/
def spoken (f : Frame) : LineEvent := .line f.line.dropLast

/-- The domain `alpha` joins, and the home session is to hand the procedures of `home/` on. -/
def introduction : List BridgeAction :=
  [.within (.discover ⟨"10.0.0.5", 9000, "alpha", "r1"⟩), .within .serve, .within (.dial 1),
    .join 1, .within (.provide 1 true), .within (.conclude 1), .within .serve,
    .session 0 (.begin (.provide "home/" .leading handler)), .session 0 (.check 0),
    .session 0 (.enqueue 0), .session 0 .write, .read (spoken (.registered 1 7))]

/-- The bridge as it is then. -/
def introduced : Bridge := ((start .alone).course introduction).getD (start .alone)

/-- What the router asks for a client. -/
def question : Frame := .invocation 42 7 (some "alpha/p") [.num (.int 1)] [("k", .str "v")]

/-- The router has asked. -/
def questioned : Bridge := (introduced.course [.read (spoken question)]).getD introduced

/-- The registry has accepted the call. -/
def accepted : Bridge := (questioned.step (.within .serve)).getD questioned

end Bridge
end Switchboard
