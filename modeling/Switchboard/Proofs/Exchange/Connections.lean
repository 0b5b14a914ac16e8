import Switchboard.Proofs.Exchange.Calls

/-!
# Connections that an exchange has heard of

Connections come to an exchange through attempts, and go from there to reports and to the sessions
of domains.

* `Exchange.Knows` says that a connection is with an attempt, its report or its session.
  `knows_of_step` says that an action brings no connection but the one that an attempt has made.
* If connections are numbered as they come, all that an exchange knows are below the next number:
  this is `Exchange.Bounded`, and `Bounded.step` keeps it.
-/

namespace Switchboard

/-- The connection of an attempt at this stage. -/
def DialStage.connection? : DialStage → Option ConnectionId
  | .providing connection => some connection
  | .finished (some link) => some link.connection
  | _ => none

namespace Exchange

/-- A connection is with the attempt of a name, with its report, or with its session. -/
inductive Knows (e : Exchange) (connection : ConnectionId) (id : SessionId) : Prop
  | dial {d : Dial} (h : e.dials.get? id = some d) (hc : d.stage.connection? = some connection)
  | report {domain : String} {link : Link} (h : .attempted domain id (some link) ∈ e.queue)
    (hc : link.connection = connection)
  | session {domain : String} {x : Entry} {link : Link}
    (h : e.registry.table.get? domain = some x) (hid : x.id = id) (hl : x.link? = some link)
    (hc : link.connection = connection)

variable {e e' : Exchange} {connection : ConnectionId} {id : SessionId}

namespace Knows

variable (k : e'.Knows connection id)
include k

/-- No connection is new if whoever has one now had it before. -/
lemma of_fields
    (hd : ∀ i d, e'.dials.get? i = some d → d.stage.connection? ≠ none → e.dials.get? i = some d)
    (hq : ∀ domain i link, .attempted domain i (some link) ∈ e'.queue →
      .attempted domain i (some link) ∈ e.queue)
    (ht : ∀ domain x, e'.registry.table.get? domain = some x → x.link? ≠ none →
      e.registry.table.get? domain = some x) : e.Knows connection id := by
  cases k with
  | dial h hc => exact .dial (hd _ _ h (by simp [hc])) hc
  | report h hc => exact .report (hq _ _ _ h) hc
  | session h hid hl hc => exact .session (ht _ _ h (by simp [hl])) hid hl hc

/-- What leaves the sessions alone does not make a connection known. -/
lemma untouched (h : e.Untouched e') : e.Knows connection id := by
  obtain ⟨extra, hq, hextra⟩ := h.queue
  refine k.of_fields (fun _ _ hget _ => h.dials ▸ hget) (fun domain i link hmem => ?_)
    fun _ _ hget _ => h.table ▸ hget
  rw [hq] at hmem
  rcases List.mem_append.1 hmem with hmem | hmem
  · exact hmem
  · exact absurd (hextra _ hmem) (by simp [Command.isReport])

/-- The session of an attempt has the connection that was reported. -/
theorem served {c : Command} {rest : List Command} (hq : e.queue = c :: rest)
    (hs : e.Served rest c e') : e.Knows connection id := by
  have hrest : ∀ domain i link, .attempted domain i (some link) ∈ rest →
      .attempted domain i (some link) ∈ e.queue := fun _ _ _ h => hq ▸ List.mem_cons_of_mem c h
  cases hs with
  | known | unusable | discarded | ignored | refused | forwarded | listed =>
    exact k.of_fields (fun _ _ h _ => h) hrest fun _ _ h _ => h
  | begun =>
    refine k.of_fields (fun _ _ h hc => ?_) hrest fun _ _ h hl => ?_
    · obtain ⟨-, rfl⟩ | h := Table.get?_of_get?_insert h
      · exact absurd rfl hc
      · exact h
    · obtain ⟨-, rfl⟩ | h := Table.get?_of_get?_insert h
      · exact absurd rfl hl
      · exact h
  | joined =>
    cases k with
    | dial h hc => exact .dial h hc
    | report h hc => exact .report (hrest _ _ _ h) hc
    | session h hid hl hc =>
      obtain ⟨-, rfl⟩ | h := Table.get?_of_get?_insert h
      · obtain rfl := Option.some.inj hl
        obtain rfl : _ = id := hid
        exact .report (hq ▸ List.mem_cons_self) hc
      · exact .session h hid hl hc
  | failed | broken =>
    exact k.of_fields (fun _ _ h _ => Table.get?_of_get?_erase h) hrest
      fun _ _ h _ => Table.get?_of_get?_erase h
  | ended =>
    exact k.of_fields (fun _ _ h _ => h) hrest fun _ _ h _ => Table.get?_of_get?_erase h

omit k in
/-- An attempt that goes on has the connection of its new stage. -/
lemma of_advance {i : SessionId} {stage : DialStage}
    (k : (e.advance i stage).Knows connection id) :
    e.Knows connection id ∨ id = i ∧ stage.connection? = some connection := by
  cases k with
  | report h hc => exact .inl (.report h hc)
  | session h hid hl hc => exact .inl (.session h hid hl hc)
  | dial h hc =>
    change (e.dials.modify i _).get? id = _ at h
    rw [Table.get?_modify] at h
    split at h
    · next hid =>
      obtain ⟨d, -, rfl⟩ := Option.map_eq_some_iff.1 h
      exact .inr ⟨hid, hc⟩
    · exact .inl (.dial h hc)

omit k in
/-- A command for the registry makes known at most the connection that it reports. -/
lemma of_tell {c : Command} (k : (e.tell c).Knows connection id) :
    e.Knows connection id ∨
      ∃ domain link, c = .attempted domain id (some link) ∧ link.connection = connection := by
  obtain ⟨h, -⟩ | ⟨h, -⟩ := e.tell_cases c <;> rw [h] at k
  · exact .inl k
  · cases k with
    | dial h hc => exact .inl (.dial h hc)
    | session h hid hl hc => exact .inl (.session h hid hl hc)
    | report h hc =>
      rcases List.mem_append.1 h with h | h
      · exact .inl (.report h hc)
      · exact .inr ⟨_, _, (List.mem_singleton.1 h).symm, hc⟩

end Knows

/-- A connection that an exchange knows is one that it knew, or one that an attempt has made. -/
theorem knows_of_step {a : ExchangeAction} (k : e'.Knows connection id)
    (h : e.step a = some e') :
    e.Knows connection id ∨ a = .connect id (some connection) := by
  cases change_of_step h with
  | stopped =>
    refine .inl (k.of_fields (fun _ _ hd => absurd hd (by simp [halt]))
      (fun _ _ _ hmem => absurd hmem (by simp [halt])) fun _ _ hget _ => ?_)
    rwa [(halt_fields _).2.2] at hget
  | served _ hq hs => exact .inl (k.served hq hs)
  | dialed | unreachable | unprovided =>
    rcases k.of_advance with k | ⟨-, hc⟩
    · exact .inl k
    · exact absurd hc (by simp [DialStage.connection?])
  | connected =>
    rcases k.of_advance with k | ⟨rfl, hc⟩
    · exact .inl k
    · rw [Option.some.inj hc]
      exact .inr rfl
  | provided hd =>
    rcases k.of_advance with k | ⟨rfl, hc⟩
    · exact .inl (k.of_fields (fun _ _ h _ => h) (fun _ _ _ h => h) fun _ _ h _ => h)
    · exact .inl (.dial hd hc)
  | concluded hd =>
    rcases k.of_tell with k | ⟨domain, link, hc, rfl⟩
    · exact .inl (k.of_fields (fun _ _ h _ => Table.get?_of_get?_erase h) (fun _ _ _ h => h)
        fun _ _ h _ => h)
    · obtain ⟨-, rfl, rfl⟩ := Command.attempted.inj hc
      exact .inl (.dial hd rfl)
  | noticed =>
    rcases k.of_tell with k | ⟨domain, link, hc, -⟩
    · exact .inl (k.of_fields (fun _ _ h _ => h) (fun _ _ _ h => h) fun _ _ h _ => h)
    · exact absurd hc (by simp)
  | withdrew => exact .inl (k.of_fields (fun _ _ h _ => h) (fun _ _ _ h => h) fun _ _ h _ => h)
  | _ => exact .inl (k.untouched (untouched_of_step rfl h))

/-- At the beginning there is the home connection. -/
theorem knows_of_start {name : String} {permits : Nat} {refusal : Option SessionError}
    (h : start name permits refusal = .ok e) (k : e.Knows connection id) :
    connection = homeConnection ∧ id = 0 := by
  rw [eq_of_start h] at k
  cases k with
  | dial hd => exact absurd hd (by simp)
  | report hmem => exact absurd hmem (by simp)
  | session hx hid hl hc =>
    rw [get?_start] at hx
    split at hx
    · obtain rfl := Option.some.inj hx
      obtain rfl := Option.some.inj hl
      exact ⟨hc.symm, hid.symm⟩
    · exact absurd hx (by simp)

/-! ## Numbered connections -/

/-- All connections that the exchange knows are below a number. -/
structure Bounded (e : Exchange) (n : ConnectionId) : Prop where
  session : ∀ d x link, e.registry.table.get? d = some x → x.link? = some link →
    link.connection < n
  report : ∀ d id link, .attempted d id (some link) ∈ e.queue → link.connection < n
  dial : ∀ id d c, e.dials.get? id = some d → d.stage.connection? = some c → c < n

lemma bounded_iff {n : ConnectionId} :
    e.Bounded n ↔ ∀ connection id, e.Knows connection id → connection < n := by
  constructor
  · rintro b connection id (⟨h, hc⟩ | ⟨h, rfl⟩ | ⟨h, -, hl, rfl⟩)
    · exact b.dial _ _ _ h hc
    · exact b.report _ _ _ h
    · exact b.session _ _ _ h hl
  · intro h
    exact ⟨fun d x link hx hl => h _ _ (.session hx rfl hl rfl),
      fun d id link hr => h _ _ (.report hr rfl), fun id d c hd hc => h _ _ (.dial hd hc)⟩

namespace Bounded

variable {n : ConnectionId} (b : e.Bounded n)
include b

lemma mono {m : ConnectionId} (h : n ≤ m) : e.Bounded m :=
  bounded_iff.2 fun c id k => Nat.lt_of_lt_of_le (bounded_iff.1 b c id k) h

/-- An exchange hears of connections only when an attempt has made one. -/
theorem step {a : ExchangeAction} (ha : ∀ id c, a = .connect id (some c) → c < n)
    (h : e.step a = some e') : e'.Bounded n := by
  refine bounded_iff.2 fun c id k => ?_
  rcases knows_of_step k h with k | rfl
  · exact bounded_iff.1 b c id k
  · exact ha id c rfl

end Bounded

end Exchange
end Switchboard
