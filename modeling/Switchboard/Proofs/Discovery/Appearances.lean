import Mathlib.Data.List.Nodup
import Mathlib.Tactic.Choose
import Switchboard.Proofs.Discovery.Addresses
import Switchboard.Proofs.Store.History

/-!
# Addresses are reported when they appear

At every tick the monitor reports the addresses that were not there the tick before. The reports go
through a bounded queue, and whatever the pace of the receiver, all of them arrive in their order.

* `Monitor.report` is what a tick reports, and `mem_report` says which addresses those are.
* `Monitor.exists_runs` counts the reports of an address by the times that it was there.
* `Watch.Conveyed` accounts for every report while the queue is at work, and `Watch.work` for what
  is left to do.
* `Watch.performed` lists the actions of a run that come to pass; `Watch.ticks_run` says that the
  ticks among them are the ticks that are counted.
* `Watch.relayed_of_run` puts this together, and `Watch.relayed_of_crowd` is a tick that fills the
  queue.
-/

namespace Switchboard

/-! ## Ticks -/

namespace Monitor

section reports

variable (script : List Enumeration)

/-- An address is there at tick `n`. -/
def Present (a : Ipv4) (n : Nat) : Prop := a ∈ (scripted script n).getD []

/-- An address is there at tick `n` and was not there the tick before. -/
def Appears (a : Ipv4) (n : Nat) : Prop :=
  Present script a n ∧ ∀ m, m + 1 = n → ¬Present script a m

/-- The monitor before tick `n`. -/
def before : Nat → Monitor
  | 0 => {}
  | n + 1 => ((before n).tick (scripted script n)).2

/-- What tick `n` reports. -/
def report (n : Nat) : List Ipv4 := ((before script n).tick (scripted script n)).1

/-- What the first `count` ticks report. -/
def reported (count : Nat) : List Ipv4 := (List.range count).flatMap (report script)

variable {script}

/-- A tick reports the addresses that the one before did not see. -/
lemma mem_tick {m : Monitor} {e : Enumeration} {a : Ipv4} :
    a ∈ (m.tick e).1 ↔ a ∈ e.getD [] ∧ a ∉ m.previous := by
  rw [tick, List.mem_filter, Enumeration.mem_addresses, decide_eq_true_eq]

/-- A tick reports what appears. -/
theorem mem_report {a : Ipv4} {n : Nat} : a ∈ report script n ↔ Appears script a n := by
  rw [report, mem_tick, Appears, Present]
  refine and_congr_right fun _ => ?_
  cases n with
  | zero => simp [before]
  | succ n =>
    have hprevious : a ∈ (before script (n + 1)).previous ↔ Present script a n :=
      Enumeration.mem_addresses
    rw [hprevious]
    simp

lemma ascending_report (n : Nat) : Ascending (report script n) :=
  (Enumeration.ascending_addresses _).sublist List.filter_sublist

/-- The reports of one tick more. -/
lemma reported_succ (count : Nat) :
    reported script (count + 1) = reported script count ++ report script count := by
  simp [reported, List.range_succ]

/-- The reports from some tick on, each address with its tick. -/
lemma reports_before (count n : Nat) : reports script count n (before script n)
    = (List.range' n count).flatMap fun k => (report script k).map (k, ·) := by
  induction count generalizing n with
  | zero => rfl
  | succ count ih =>
    rw [reports, List.range'_succ, List.flatMap_cons, ← ih]
    rfl

/-- What a receiver gets that never lags. -/
theorem timeline_eq (period moment : Nat) : timeline period moment script
    = (List.range (ticksBefore period moment)).flatMap fun n =>
        (report script n).map (n * period, ·) := by
  have h : reports script (ticksBefore period moment) 0 (before script 0) = _ := reports_before _ 0
  rw [timeline, show ({} : Monitor) = before script 0 from rfl, h, List.range_eq_range',
    List.map_flatMap]
  simp [Function.comp_def]

end reports

/-! ## Runs of ticks -/

/-- An address is there from tick `i` on and no more at tick `j`, of the first `count` ticks. -/
structure IsRun (script : List Enumeration) (count : Nat) (a : Ipv4) (i j : Nat) : Prop where
  lt : i < j
  le : j ≤ count
  within : ∀ n, i ≤ n → n < j → Present script a n
  /-- It was not there before. -/
  first : ∀ m, m + 1 = i → ¬Present script a m
  /-- It is not there after, unless that is not among the ticks. -/
  last : j < count → ¬Present script a j

section runs

variable {script : List Enumeration} {count : Nat} {a : Ipv4}

/-- An address that has been there stays until a tick at which it is not there, or to the end. -/
lemma exists_last {i k : Nat} (h : ∀ n, i ≤ n → n < k → Present script a n) (hk : k ≤ count) :
    ∃ j, k ≤ j ∧ j ≤ count ∧ (∀ n, i ≤ n → n < j → Present script a n) ∧
      (j < count → ¬Present script a j) := by
  obtain ⟨d, rfl⟩ := Nat.exists_eq_add_of_le hk
  induction d generalizing k with
  | zero => exact ⟨k, Nat.le_refl _, Nat.le_refl _, h, fun hlt => absurd hlt (Nat.lt_irrefl _)⟩
  | succ d ih =>
    by_cases hpresent : Present script a k
    · have hmore : ∀ n, i ≤ n → n < k + 1 → Present script a n := fun n hi hn => by
        rcases Nat.lt_succ_iff_lt_or_eq.1 hn with hlt | rfl
        · exact h n hi hlt
        · exact hpresent
      have hend : k + 1 + d = k + (d + 1) := by omega
      obtain ⟨j, hj⟩ := ih hmore (by omega)
      rw [hend] at hj
      exact ⟨j, Nat.le_trans (Nat.le_succ k) hj.1, hj.2⟩
    · exact ⟨k, Nat.le_refl _, hk, h, fun _ => hpresent⟩

/-- A run begins where the address appears. -/
lemma exists_run {i : Nat} (h : Appears script a i) (hi : i < count) :
    ∃ j, IsRun script count a i j := by
  have hone : ∀ n, i ≤ n → n < i + 1 → Present script a n := fun n hin hn => by
    obtain rfl : n = i := by omega
    exact h.1
  obtain ⟨j, hlt, hle, hwithin, hlast⟩ := exists_last hone hi
  exact ⟨j, hlt, hle, hwithin, h.2, hlast⟩

/-- An address appears at the first tick of a run. -/
lemma IsRun.appears {i j : Nat} (r : IsRun script count a i j) : Appears script a i :=
  ⟨r.within i (Nat.le_refl _) r.lt, r.first⟩

/-- Of two runs with one beginning, none ends before the other. -/
theorem IsRun.le_of_start {i j j' : Nat} (r : IsRun script count a i j)
    (r' : IsRun script count a i j') : j' ≤ j := by
  by_contra hlt
  have hj : j < j' := Nat.lt_of_not_le hlt
  exact r.last (Nat.lt_of_lt_of_le hj r'.le) (r'.within j (Nat.le_of_lt r.lt) hj)

/-- An address is reported as often as there are ticks that report it. -/
lemma count_reported (count : Nat) : (reported script count).count a
    = ((List.range count).filter (a ∈ report script ·)).length := by
  induction count with
  | zero => rfl
  | succ count ih =>
    rw [reported_succ, List.count_append, ih, (ascending_report count).nodup.count,
      List.range_succ, List.filter_append, List.length_append]
    by_cases h : a ∈ report script count <;> simp [h]

/-- An address is reported as many times as there are runs of ticks at which it is there. -/
theorem exists_runs (script : List Enumeration) (count : Nat) (a : Ipv4) :
    ∃ runs : List (Nat × Nat), runs.Nodup ∧
      (∀ i j, (i, j) ∈ runs ↔ IsRun script count a i j) ∧
      (reported script count).count a = runs.length := by
  have hstart : ∀ i, i ∈ (List.range count).filter (a ∈ report script ·) ↔
      i < count ∧ Appears script a i := fun i => by
    rw [List.mem_filter, List.mem_range, decide_eq_true_eq, mem_report]
  have hrun : ∀ i, i < count ∧ Appears script a i → ∃ j, IsRun script count a i j := fun i h =>
    exists_run h.2 h.1
  -- one run for each report, from the tick that made it
  choose! stop hstop using hrun
  refine ⟨((List.range count).filter (a ∈ report script ·)).map fun i => (i, stop i), ?_, ?_, ?_⟩
  · exact (List.nodup_range.filter _).map fun i j h => congrArg Prod.fst h
  · intro i j
    rw [List.mem_map]
    constructor
    · rintro ⟨i', hi', heq⟩
      obtain ⟨rfl, rfl⟩ := Prod.mk.inj heq
      exact hstop _ ((hstart _).1 hi')
    · intro r
      have hi : i < count ∧ Appears script a i := ⟨Nat.lt_of_lt_of_le r.lt r.le, r.appears⟩
      have hj : stop i = j := Nat.le_antisymm (r.le_of_start (hstop i hi))
        ((hstop i hi).le_of_start r)
      exact ⟨i, (hstart i).2 hi, by rw [hj]⟩
  · rw [count_reported, List.length_map]

end runs

end Monitor

/-! ## The queue -/

namespace Watch

variable {script : List Enumeration}

/-- What an action does, and what it delivers. -/
inductive Change (script : List Enumeration) (w : Watch) : WatchAction → Option Ipv4 → Watch → Prop
  | ticked (h : w.waiting = []) :
    Change script w .tick none
      { w with
        monitor := (w.monitor.tick (Monitor.scripted script w.ticks)).2
        ticks := w.ticks + 1
        waiting := (w.monitor.tick (Monitor.scripted script w.ticks)).1 }
  | enqueued {a : Ipv4} {rest : List Ipv4} (h : w.waiting = a :: rest)
    (hroom : w.queue.length < capacity) :
    Change script w .enqueue none { w with waiting := rest, queue := w.queue ++ [a] }
  | taken {a : Ipv4} {rest : List Ipv4} (h : w.queue = a :: rest) :
    Change script w .take (some a) { w with queue := rest }

lemma change_of_step {w w' : Watch} {action : WatchAction} {delivered : Option Ipv4}
    (h : w.step script action = some (delivered, w')) : Change script w action delivered w' := by
  cases action with
  | tick =>
    simp only [step] at h
    split at h
    · exact absurd h (by simp)
    · next hwaiting =>
      obtain ⟨rfl, rfl⟩ := Prod.mk.inj (Option.some.inj h)
      exact .ticked (not_not.1 hwaiting)
  | enqueue =>
    simp only [step] at h
    split at h
    · exact absurd h (by simp)
    · next a rest hwaiting =>
      split at h
      · next hroom =>
        obtain ⟨rfl, rfl⟩ := Prod.mk.inj (Option.some.inj h)
        exact .enqueued hwaiting hroom
      · exact absurd h (by simp)
  | take =>
    simp only [step] at h
    split at h
    · exact absurd h (by simp)
    · next a rest hqueue =>
      obtain ⟨rfl, rfl⟩ := Prod.mk.inj (Option.some.inj h)
      exact .taken hqueue

/-- All that ticks have reported has been delivered, or is queued, or waits for room, in this
order. -/
structure Conveyed (script : List Enumeration) (delivered : List Ipv4) (w : Watch) : Prop where
  monitor : w.monitor = Monitor.before script w.ticks
  reports : delivered ++ w.queue ++ w.waiting = Monitor.reported script w.ticks
  room : w.queue.length ≤ capacity

/-- What has been conveyed is accounted for after every step. -/
lemma Conveyed.step {delivered : List Ipv4} {w w' : Watch} {action : WatchAction}
    {more : Option Ipv4} (c : Conveyed script delivered w)
    (h : w.step script action = some (more, w')) :
    Conveyed script (delivered ++ more.toList) w' := by
  obtain ⟨hmonitor, hreports, hroom⟩ := c
  cases change_of_step h with
  | ticked hwaiting =>
    refine ⟨?_, ?_, hroom⟩
    · rw [hmonitor]
      rfl
    · rw [hwaiting, List.append_nil] at hreports
      rw [Monitor.reported_succ, ← hreports, hmonitor]
      simp [Monitor.report]
  | @enqueued a rest hwaiting hlt =>
    refine ⟨hmonitor, ?_, ?_⟩
    · rw [hwaiting] at hreports
      simpa using hreports
    · rw [List.length_append]
      exact hlt
  | @taken a rest hqueue =>
    rw [hqueue] at hreports hroom
    exact ⟨hmonitor, by simpa using hreports, Nat.le_of_succ_le hroom⟩

/-- What is left to do before the next tick: every waiting report is queued and then taken. -/
def work (w : Watch) : Nat := 2 * w.waiting.length + w.queue.length

/-- No work is left when nothing is queued and nothing waits. -/
lemma work_eq_zero_iff {w : Watch} : w.work = 0 ↔ w.queue = [] ∧ w.waiting = [] := by
  rw [work, ← List.length_eq_zero_iff, ← List.length_eq_zero_iff]
  omega

/-- Between ticks, every action does a part of it. -/
theorem work_of_step {w w' : Watch} {action : WatchAction} {delivered : Option Ipv4}
    (haction : action ≠ .tick) (h : w.step script action = some (delivered, w')) :
    w'.work + 1 = w.work ∧ w'.ticks = w.ticks := by
  cases change_of_step h with
  | ticked => exact absurd rfl haction
  | enqueued hwaiting =>
    refine ⟨?_, rfl⟩
    simp only [work, hwaiting, List.length_append, List.length_cons, List.length_nil]
    omega
  | taken hqueue => simp [work, hqueue, Nat.add_assoc]

/-- Between ticks, what is delivered is the first of what is on its way. -/
theorem append_of_step {w w' : Watch} {action : WatchAction} {delivered : Option Ipv4}
    (haction : action ≠ .tick) (h : w.step script action = some (delivered, w')) :
    delivered.toList ++ (w'.queue ++ w'.waiting) = w.queue ++ w.waiting := by
  cases change_of_step h with
  | ticked => exact absurd rfl haction
  | enqueued hwaiting => simp [hwaiting]
  | taken hqueue => simp [hqueue]

/-- A tick is one tick more, and its report waits for room. -/
lemma Conveyed.ticked {delivered : List Ipv4} {w w' : Watch} {more : Option Ipv4}
    (c : Conveyed script delivered w) (h : w.step script .tick = some (more, w')) :
    more = none ∧ w'.ticks = w.ticks + 1 ∧ w'.waiting = Monitor.report script w.ticks ∧
      w'.queue = w.queue := by
  cases change_of_step h with
  | ticked =>
    refine ⟨rfl, rfl, ?_, rfl⟩
    rw [Monitor.report, ← c.monitor]

lemma isSome_tick {w : Watch} : (w.step script .tick).isSome = true ↔ w.waiting = [] := by
  by_cases h : w.waiting = [] <;> simp [step, h]

/-- A waiting report is queued as soon as there is room. -/
lemma isSome_enqueue {w : Watch} : (w.step script .enqueue).isSome = true ↔
    w.waiting ≠ [] ∧ w.queue.length < capacity := by
  cases h : w.waiting with
  | nil => simp [step, h]
  | cons a rest => by_cases hroom : w.queue.length < capacity <;> simp [step, h, hroom]

lemma isSome_take {w : Watch} : (w.step script .take).isSome = true ↔ w.queue ≠ [] := by
  cases h : w.queue <;> simp [step, h]

/-- A report that has not been delivered can be queued or taken: if the queue is full, it is the
receiver's turn. -/
lemma exists_step_of_work (script : List Enumeration) {w : Watch} (h : 0 < w.work) :
    ∃ action, action ≠ .tick ∧ (w.step script action).isSome = true := by
  cases hqueue : w.queue with
  | cons a rest => exact ⟨.take, by decide, by simp [step, hqueue]⟩
  | nil =>
    cases hwaiting : w.waiting with
    | cons a rest => exact ⟨.enqueue, by decide, by simp [step, hqueue, hwaiting, capacity]⟩
    | nil => exact absurd (work_eq_zero_iff.2 ⟨hqueue, hwaiting⟩) (Nat.ne_of_gt h)

/-! ## Courses of actions -/

/-- Performs actions one after the other, leaving out those that are not possible, and collects what
they deliver. -/
def run (script : List Enumeration) (w : Watch) : List WatchAction → List Ipv4 × Watch
  | [] => ([], w)
  | action :: rest =>
    match w.step script action with
    | none => run script w rest
    | some (delivered, w') =>
      (delivered.toList ++ (run script w' rest).1, (run script w' rest).2)

lemma run_cons_of_step {w w' : Watch} {action : WatchAction} {delivered : Option Ipv4}
    (h : w.step script action = some (delivered, w')) (rest : List WatchAction) :
    run script w (action :: rest)
      = (delivered.toList ++ (run script w' rest).1, (run script w' rest).2) := by
  rw [run, h]

/-- The actions of a list that come to pass, each with the state in which it does, the latest
first. -/
def performed (script : List Enumeration) (w : Watch) (actions : List WatchAction) :
    List (Watch × WatchAction) :=
  History.trail (fun w action => (w.step script action).map Prod.snd) w actions

/-- The ticks that are counted are those that come to pass. -/
theorem ticks_run (script : List Enumeration) (w : Watch) (actions : List WatchAction) :
    (run script w actions).2.ticks
      = w.ticks + (performed script w actions).countP fun p => p.2 = .tick := by
  induction actions generalizing w with
  | nil => rfl
  | cons action rest ih =>
    cases h : w.step script action with
    | none =>
      have hperformed : performed script w (action :: rest) = performed script w rest :=
        History.trail_of_none (congrArg _ h) rest
      rw [run, h, hperformed]
      exact ih w
    | some next =>
      obtain ⟨more, w'⟩ := next
      have hperformed : performed script w (action :: rest)
          = performed script w' rest ++ [(w, action)] :=
        History.trail_of_some (congrArg _ h) rest
      have hticks : w'.ticks = w.ticks + if action = .tick then 1 else 0 := by
        cases change_of_step h <;> rfl
      rw [run_cons_of_step h, hperformed, List.countP_append, List.countP_singleton, ih w', hticks]
      simp only [decide_eq_true_eq]
      omega

lemma Conveyed.run {delivered : List Ipv4} {w : Watch} (c : Conveyed script delivered w)
    (actions : List WatchAction) : Conveyed script
      (delivered ++ (Watch.run script w actions).1) (Watch.run script w actions).2 := by
  induction actions generalizing delivered w with
  | nil => simpa [Watch.run] using c
  | cons action rest ih =>
    cases h : w.step script action with
    | none =>
      rw [Watch.run, h]
      exact ih c
    | some next =>
      obtain ⟨more, w'⟩ := next
      rw [run_cons_of_step h, ← List.append_assoc]
      exact ih (c.step h)

lemma conveyed_start (script : List Enumeration) : Conveyed script [] {} :=
  ⟨rfl, rfl, Nat.zero_le _⟩

/-- Without another tick, everything that is on its way can be delivered. -/
lemma exists_delivery (script : List Enumeration) (w : Watch) :
    ∃ more, .tick ∉ more ∧ (run script w more).1 = w.queue ++ w.waiting ∧
      (run script w more).2.ticks = w.ticks ∧ (run script w more).2.work = 0 := by
  generalize hwork : w.work = n
  induction n generalizing w with
  | zero =>
    obtain ⟨hqueue, hwaiting⟩ := work_eq_zero_iff.1 hwork
    exact ⟨[], List.not_mem_nil, by rw [hqueue, hwaiting]; rfl, rfl, hwork⟩
  | succ n ih =>
    have hpos : 0 < w.work := hwork ▸ Nat.succ_pos n
    obtain ⟨action, haction, hsome⟩ := exists_step_of_work script hpos
    obtain ⟨⟨delivered, w'⟩, hstep⟩ := Option.isSome_iff_exists.1 hsome
    obtain ⟨hless, hticks⟩ := work_of_step haction hstep
    obtain ⟨more, hmore, hdelivered, hticks', hdone⟩ := ih w' (by omega)
    refine ⟨action :: more, ?_, ?_, ?_, ?_⟩
    · exact fun hmem => (List.mem_cons.1 hmem).elim (fun heq => haction heq.symm) hmore
    · rw [run_cons_of_step hstep, hdelivered]
      exact append_of_step haction hstep
    · rw [run_cons_of_step hstep, hticks', hticks]
    · rw [run_cons_of_step hstep, hdone]

/-! ## The whole -/

/-- What becomes of the reports while a monitor is at work: `delivered` is what the receiver has got
by now. -/
structure Relayed (script : List Enumeration) (delivered : List Ipv4) (w : Watch) : Prop where
  /-- The reports of all ticks, in their order, have been delivered, are queued or wait for room. -/
  inOrder : delivered ++ w.queue ++ w.waiting = Monitor.reported script w.ticks
  bounded : w.queue.length ≤ capacity
  /-- The next tick is possible if and only if all reports have been queued. -/
  patient : (w.step script .tick).isSome = true ↔ w.waiting = []
  /-- It is one tick more, and its report waits to be queued. -/
  ticked : ∀ more w', w.step script .tick = some (more, w') →
    more = none ∧ w'.ticks = w.ticks + 1 ∧ w'.waiting = Monitor.report script w.ticks ∧
      w'.queue = w.queue
  /-- A report that waits can be queued if and only if the queue has room, -/
  queues : (w.step script .enqueue).isSome = true ↔ w.waiting ≠ [] ∧ w.queue.length < capacity
  /-- and the receiver can take one if and only if the queue has one. -/
  takes : (w.step script .take).isSome = true ↔ w.queue ≠ []
  /-- If a report has not been delivered, something is possible without another tick, -/
  progress : 0 < w.work → ∃ action, action ≠ .tick ∧ (w.step script action).isSome = true
  /-- and whatever is done leaves less to do. -/
  less : ∀ action more w', action ≠ .tick → w.step script action = some (more, w') →
    w'.work + 1 = w.work ∧ w'.ticks = w.ticks
  /-- When there is nothing left to do, the receiver has got all reports, as one would have who
  never lags. -/
  complete : w.work = 0 → delivered = Monitor.reported script w.ticks ∧
    ∀ period moment, Monitor.ticksBefore period moment = w.ticks →
      (Monitor.timeline period moment script).map Prod.snd = delivered
  /-- This can always be reached. -/
  delivery : ∃ rest, .tick ∉ rest ∧ (run script w rest).2.work = 0 ∧
    delivered ++ (run script w rest).1 = Monitor.reported script w.ticks

/-- What is conveyed is relayed. -/
lemma Conveyed.relayed {delivered : List Ipv4} {w : Watch} (c : Conveyed script delivered w) :
    Relayed script delivered w := by
  refine ⟨c.reports, c.room, isSome_tick, fun more w' h => c.ticked h, isSome_enqueue, isSome_take,
    exists_step_of_work script, fun action more w' haction h => work_of_step haction h,
    fun h => ?_, ?_⟩
  · obtain ⟨hqueue, hwaiting⟩ := work_eq_zero_iff.1 h
    have hall := c.reports
    rw [hqueue, hwaiting, List.append_nil, List.append_nil] at hall
    refine ⟨hall, fun period moment hticks => ?_⟩
    rw [hall, Monitor.timeline_eq, hticks, List.map_flatMap, Monitor.reported]
    simp [Function.comp_def]
  · obtain ⟨rest, hrest, hdelivered, -, hdone⟩ := exists_delivery script w
    refine ⟨rest, hrest, hdone, ?_⟩
    rw [hdelivered, ← List.append_assoc]
    exact c.reports

/-- For every script of enumerations: a tick reports, ascending and none twice, the addresses that
its enumeration lists and the one before does not, a failed one listing none; so an address is
reported as many times as there are runs of ticks at which it is there. Whatever the ticks, the
queue and the receiver do, and in whatever order, the receiver gets the reports of all ticks that
come to pass, in their order, and no tick comes before all reports of the last one are queued. -/
theorem relayed_of_run (script : List Enumeration) :
    (∀ n, Ascending (Monitor.report script n)) ∧
    (∀ n a, a ∈ Monitor.report script n ↔ a ∈ (Monitor.scripted script n).getD [] ∧
      ∀ m, m + 1 = n → a ∉ (Monitor.scripted script m).getD []) ∧
    (∀ count a, ∃ runs : List (Nat × Nat), runs.Nodup ∧
      (∀ i j, (i, j) ∈ runs ↔ Monitor.IsRun script count a i j) ∧
      (Monitor.reported script count).count a = runs.length) ∧
    ∀ actions, Relayed script (run script {} actions).1 (run script {} actions).2 ∧
      (run script {} actions).2.ticks
        = (performed script {} actions).countP fun p => p.2 = .tick := by
  refine ⟨Monitor.ascending_report, fun n a => Monitor.mem_report, Monitor.exists_runs script,
    fun actions => ⟨?_, ?_⟩⟩
  · have hconveyed := (conveyed_start script).run actions
    rw [List.nil_append] at hconveyed
    exact hconveyed.relayed
  · rw [ticks_run]
    exact Nat.zero_add _

/-- Forty addresses appear at once. The queue is full in the middle of the tick: eight reports wait,
nothing more can be queued, and the next tick has to wait too, until the receiver takes a report. -/
theorem relayed_of_crowd :
    let script : List Enumeration := [some ((List.range 40).map fun n => ⟨10, 0, 0, n.toUInt8⟩)]
    let w := (run script {} (.tick :: List.replicate 40 .enqueue)).2
    w.ticks = 1 ∧ w.queue.length = capacity ∧ w.waiting.length = 8 ∧
      w.step script .enqueue = none ∧ w.step script .tick = none ∧
      (run script w [.take, .enqueue]).2.waiting.length = 7 ∧
      Relayed script [] w := by
  intro script w
  refine ⟨by decide +kernel, by decide +kernel, by decide +kernel, by decide +kernel,
    by decide +kernel, by decide +kernel, ?_⟩
  have hrelayed := ((relayed_of_run script).2.2.2 (.tick :: List.replicate 40 .enqueue)).1
  have hnone : (run script {} (.tick :: List.replicate 40 .enqueue)).1 = [] := by decide +kernel
  rwa [hnone] at hrelayed

end Watch
end Switchboard
