import Mathlib.Algebra.GroupWithZero.Nat
import Mathlib.Data.List.Forall2
import Switchboard.Discovery.Announcer
import Switchboard.Proofs.Discovery.Addresses

/-!
# Cycles of an announcer

In every cycle a heartbeat leaves through each local address with which it can be written. What
happens at one address, be it that the heartbeat is too long or that it cannot be sent, is of no
concern to another address or another cycle.

* `Cycle.Complete` says what a cycle sends, by its addresses alone.
* `complete_of_cycles` says this of all cycles in a row, and `total_of_cycles` what they add up to.
  `toNat_counter` reads the total from the word that counts it.
* `announced_of_cycles` puts this together.
-/

namespace Switchboard

/-- A cycle that has tried to send one heartbeat through each address with which it can be written,
where sends through the interfaces of `failing` fail. -/
structure Cycle.Complete (template : DomainInfo) (e : Enumeration) (failing : List Ipv4)
    (c : Cycle) : Prop where
  /-- One after the other, each address at most once. -/
  ascending : Ascending (c.attempted.map (·.interface))
  attempted : ∀ x, x ∈ c.attempted ↔ x.interface ∈ e.getD [] ∧
    Heartbeat.encode (template.withAddress x.interface.render) = .ok x.datagram
  inOrder : c.delivered.Sublist c.attempted
  delivered : ∀ x, x ∈ c.delivered ↔ x ∈ c.attempted ∧ x.interface ∉ failing
  sent : c.sent = c.attempted.countP fun x => x.interface ∉ failing

/-- What complete cycles do at an address depends on nothing but whether the address is there and
whether sends through it fail. -/
theorem Cycle.Complete.aside {template : DomainInfo} {e e' : Enumeration}
    {failing failing' : List Ipv4} {c c' : Cycle} (h : c.Complete template e failing)
    (h' : c'.Complete template e' failing') {ip : Ipv4} (he : ip ∈ e.getD [] ↔ ip ∈ e'.getD [])
    (hfailing : ip ∈ failing ↔ ip ∈ failing') (datagram : List UInt8) :
    (⟨ip, datagram⟩ ∈ c.attempted ↔ ⟨ip, datagram⟩ ∈ c'.attempted) ∧
      (⟨ip, datagram⟩ ∈ c.delivered ↔ ⟨ip, datagram⟩ ∈ c'.delivered) := by
  have hattempted : (⟨ip, datagram⟩ : Transmission) ∈ c.attempted ↔
      (⟨ip, datagram⟩ : Transmission) ∈ c'.attempted := by
    rw [h.attempted, h'.attempted, he]
  refine ⟨hattempted, ?_⟩
  rw [h.delivered, h'.delivered, hattempted, hfailing]

namespace Announcer

/-- A heartbeat that can be written leaves through the address that it names. -/
lemma transmission?_eq_some_iff {a : Announcer} {ip : Ipv4} {x : Transmission} :
    a.transmission? ip = some x ↔ x.interface = ip ∧
      Heartbeat.encode (a.template.withAddress x.interface.render) = .ok x.datagram := by
  obtain ⟨interface, datagram⟩ := x
  unfold transmission?
  split
  · next written h =>
    rw [Option.some.injEq, Transmission.mk.injEq]
    constructor
    · rintro ⟨rfl, rfl⟩
      exact ⟨rfl, h⟩
    · rintro ⟨rfl, hdatagram⟩
      exact ⟨rfl, Except.ok.inj (h.symm.trans hdatagram)⟩
  · next error h =>
    refine iff_of_false (by simp) ?_
    rintro ⟨rfl, hdatagram⟩
    exact absurd (h.symm.trans hdatagram) (by simp)

/-- The interfaces of what is tried are the addresses that are left. -/
lemma interfaces_sublist (a : Announcer) (addresses : List Ipv4) :
    ((addresses.filterMap a.transmission?).map (·.interface)).Sublist addresses := by
  induction addresses with
  | nil => exact .slnil
  | cons ip rest ih =>
    cases h : a.transmission? ip with
    | none =>
      rw [List.filterMap_cons_none h]
      exact ih.cons ip
    | some x =>
      rw [List.filterMap_cons_some h, List.map_cons, (transmission?_eq_some_iff.1 h).1]
      exact ih.cons_cons ip

/-- A cycle is complete, whatever fails in it. -/
lemma complete_of_cycle (a : Announcer) (e : Enumeration) (failing : List Ipv4) :
    (a.cycle e failing).1.Complete a.template e failing where
  ascending := (Enumeration.ascending_addresses e).sublist (a.interfaces_sublist e.addresses)
  attempted x := by
    change x ∈ e.addresses.filterMap a.transmission? ↔ _
    simp only [List.mem_filterMap, transmission?_eq_some_iff, ← Enumeration.mem_addresses]
    grind
  inOrder := List.filter_sublist
  delivered x := List.mem_filter.trans (and_congr_right fun _ => decide_eq_true_iff)
  sent := List.countP_eq_length_filter.symm

/-- A cycle does not depend on what has been sent before. -/
lemma cycle_congr {a a' : Announcer} (h : a'.template = a.template) (e : Enumeration)
    (failing : List Ipv4) : (a'.cycle e failing).1 = (a.cycle e failing).1 := by
  have htransmission : a'.transmission? = a.transmission? := by
    funext ip
    rw [transmission?, transmission?, h]
  simp only [cycle, htransmission]

/-- Each of several cycles does what it would do alone. -/
lemma map_cycles (a : Announcer) (script : List (Enumeration × List Ipv4)) :
    (a.cycles script).map Prod.fst = script.map fun p => (a.cycle p.1 p.2).1 := by
  induction script generalizing a with
  | nil => rfl
  | cons p rest ih =>
    obtain ⟨e, failing⟩ := p
    have htemplate : (a.cycle e failing).2.template = a.template := rfl
    rw [cycles, List.map_cons, List.map_cons, ih]
    exact congrArg _ (List.map_congr_left fun p _ => cycle_congr htemplate p.1 p.2)

/-- All cycles of a script are complete. -/
theorem complete_of_cycles (a : Announcer) (script : List (Enumeration × List Ipv4)) :
    List.Forall₂ (fun p c => c.Complete a.template p.1 p.2) script
      ((a.cycles script).map Prod.fst) := by
  rw [map_cycles, List.forall₂_map_right_iff, List.forall₂_same]
  exact fun p _ => a.complete_of_cycle p.1 p.2

/-- The counter adds up what the cycles have sent. -/
theorem total_of_cycles (a : Announcer) {script : List (Enumeration × List Ipv4)} {n : Nat}
    {c : Cycle} {total : Nat} (h : (a.cycles script)[n]? = some (c, total)) :
    total = a.sent + (((a.cycles script).take (n + 1)).map fun q => q.1.sent).sum := by
  induction script generalizing a n with
  | nil => exact absurd h (by simp [cycles])
  | cons p rest ih =>
    obtain ⟨e, failing⟩ := p
    have hcycles : a.cycles ((e, failing) :: rest)
        = ((a.cycle e failing).1, (a.cycle e failing).2.sent)
          :: (a.cycle e failing).2.cycles rest := rfl
    have hsent : (a.cycle e failing).2.sent = a.sent + (a.cycle e failing).1.sent := rfl
    rw [hcycles] at h ⊢
    rw [List.take_succ_cons, List.map_cons, List.sum_cons]
    cases n with
    | zero =>
      obtain ⟨rfl, rfl⟩ := Prod.mk.inj (Option.some.inj h)
      simpa using hsent
    | succ n =>
      rw [List.getElem?_cons_succ] at h
      have hrest := ih (a.cycle e failing).2 h
      rw [hrest, hsent, Nat.add_assoc]

/-- The counter goes up by what a cycle has sent. -/
lemma counter_cycle (a : Announcer) (e : Enumeration) (failing : List Ipv4) :
    (a.cycle e failing).2.counter = a.counter + UInt64.ofNat (a.cycle e failing).1.sent :=
  UInt64.ofNat_add a.sent (a.cycle e failing).1.sent

/-- The counter is right as long as it has not wrapped around. -/
lemma toNat_counter {a : Announcer} (h : a.sent < 2 ^ 64) : a.counter.toNat = a.sent :=
  UInt64.toNat_ofNat_of_lt h

/-- What is sent before a moment is what the cycles until then send, one after the other. -/
theorem timeline_eq (a : Announcer) (period moment : Nat) (script : List Enumeration) :
    (a.timeline period moment script).map Prod.snd
      = ((a.cycles ((List.range (Monitor.ticksBefore period moment)).map fun n =>
          (Monitor.scripted script n, []))).map Prod.fst).flatMap Cycle.delivered := by
  rw [map_cycles, timeline, List.map_map, List.map_flatMap, List.flatMap_map]
  simp [Function.comp_def]

/-- Whatever the template, the addresses and the sends that fail: every cycle tries to send one
heartbeat through each of its addresses with which the heartbeat can be written, in ascending order,
and counts those that are sent; the total adds up all cycles, and the counter shows it as long as 64
bits suffice; and what is sent through an address depends neither on the other addresses nor on
other cycles. -/
theorem announced_of_cycles (a : Announcer) (script : List (Enumeration × List Ipv4)) :
    List.Forall₂ (fun p c => c.Complete a.template p.1 p.2) script
      ((a.cycles script).map Prod.fst) ∧
    (∀ (n : Nat) c total, (a.cycles script)[n]? = some (c, total) →
      total = a.sent + (((a.cycles script).take (n + 1)).map fun q => q.1.sent).sum) ∧
    ((∀ e failing,
      (a.cycle e failing).2.counter = a.counter + UInt64.ofNat (a.cycle e failing).1.sent) ∧
      (a.sent < 2 ^ 64 → a.counter.toNat = a.sent)) ∧
    (∀ a' : Announcer, a'.template = a.template →
      ∀ (e e' : Enumeration) (failing failing' : List Ipv4) (ip : Ipv4),
      (ip ∈ e.getD [] ↔ ip ∈ e'.getD []) → (ip ∈ failing ↔ ip ∈ failing') →
      ∀ datagram,
        (⟨ip, datagram⟩ ∈ (a.cycle e failing).1.attempted ↔
          ⟨ip, datagram⟩ ∈ (a'.cycle e' failing').1.attempted) ∧
        (⟨ip, datagram⟩ ∈ (a.cycle e failing).1.delivered ↔
          ⟨ip, datagram⟩ ∈ (a'.cycle e' failing').1.delivered)) ∧
    ∀ period moment polls, (a.timeline period moment polls).map Prod.snd
      = ((a.cycles ((List.range (Monitor.ticksBefore period moment)).map fun n =>
          (Monitor.scripted polls n, []))).map Prod.fst).flatMap Cycle.delivered := by
  refine ⟨a.complete_of_cycles script, fun n c total => a.total_of_cycles,
    ⟨a.counter_cycle, toNat_counter⟩, ?_, a.timeline_eq⟩
  intro a' htemplate e e' failing failing' ip he hfailing datagram
  have h' := a'.complete_of_cycle e' failing'
  rw [htemplate] at h'
  exact (a.complete_of_cycle e failing).aside h' he hfailing datagram

end Announcer
end Switchboard
