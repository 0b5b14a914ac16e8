import Mathlib.Data.List.Induction
import Switchboard.Call.Signal

/-!
# The loss is told once and for good

Signals are taken and copied before and after the loss, waits are begun before and after it, and the
notifier may go away at any time. What signals report and which waits have ended is told by what has
happened alone, and nothing that has been told is taken back.

* `resume_look_set` and `resume_look_release` say what becomes of a wait when the value is set and
  when its holder goes away.
* `Settled` says that every wait stands where one would that begins now, and `lost_after` that this
  holds whatever has happened.
* `latched_after` puts this together.
-/

namespace Switchboard

/-! ## Waits -/

namespace Watched

variable {α : Type} {wanted : α → Bool}

/-- A wait that is polled ends when the value is the wanted one or no sender is left. -/
lemma hasEnded_look (w : Watched α) :
    (w.look wanted).hasEnded = (wanted w.value || !w.isHeld) := by
  unfold look
  split <;> simp_all [Wait.hasEnded]

/-- A wait that has not ended looks again when the value is set. -/
theorem resume_look_set (w : Watched α) (v : α) : (w.set v).resume wanted (w.look wanted)
    = if (w.look wanted).hasEnded then .ended else (w.set v).look wanted := by
  have hversion : w.version ≠ (w.set v).version := Nat.ne_of_lt (Nat.lt_succ_self _)
  by_cases h : (wanted w.value || !w.isHeld) = true
  · simp [look, h, resume, Wait.hasEnded]
  · have hlook : w.look wanted = .asleep w.version := if_neg h
    rw [hlook, resume, if_pos hversion]
    rfl

/-- A wait ends when there is nobody left who could set the value. -/
theorem resume_look_release (w : Watched α) :
    w.release.resume wanted (w.look wanted) = .ended := by
  by_cases h : (wanted w.value || !w.isHeld) = true
  · simp [look, h, resume]
  · have hlook : w.look wanted = .asleep w.version := if_neg h
    rw [hlook]
    simp [resume, release]

end Watched

namespace LossSignal

/-- Every wait stands where one would that begins now. -/
def Settled (s : LossSignal) : Prop := ∀ w ∈ s.pending, w = s.lost.look id

/-- Waits that can end have ended after every step. -/
lemma Settled.step {s : LossSignal} (h : s.Settled) (a : SignalAction) : (s.step a).Settled := by
  cases a with
  | notify =>
    rw [LossSignal.step]
    split
    · intro w hw
      obtain ⟨x, hx, rfl⟩ := List.mem_map.1 hw
      -- the value is as wanted now, so both have ended
      have hended : (s.lost.set true).look id = .ended := rfl
      change (s.lost.set true).resume id x = (s.lost.set true).look id
      rw [h x hx, Watched.resume_look_set, hended, ite_self]
    · exact h
  | subscribe | clone =>
    rw [LossSignal.step]
    split <;> exact h
  | wait i =>
    rw [LossSignal.step]
    split
    · intro w hw
      rcases List.mem_append.1 hw with hw | hw
      · exact h w hw
      · exact List.mem_singleton.1 hw
    · exact h
  | dropNotifier =>
    intro w hw
    obtain ⟨x, hx, rfl⟩ := List.mem_map.1 hw
    have hended : s.lost.release.look id = .ended := by simp [Watched.look, Watched.release]
    change s.lost.release.resume id x = s.lost.release.look id
    rw [h x hx, Watched.resume_look_release, hended]
  | idle => exact h

/-! ## All that has happened -/

/-- The signal after all that has happened, one after the other. -/
def after (actions : List SignalAction) : LossSignal := actions.foldl step {}

/-- The loss has been announced, while the notifier was there. -/
def Announced (actions : List SignalAction) : Prop :=
  ∃ before later, actions = before ++ .notify :: later ∧ .dropNotifier ∉ before

variable {l : List SignalAction}

lemma after_append_singleton (l : List SignalAction) (a : SignalAction) :
    after (l ++ [a]) = (after l).step a := by
  rw [after, List.foldl_append]
  rfl

lemma not_announced_nil : ¬Announced [] := by
  rintro ⟨before, later, h, -⟩
  simp at h

lemma Announced.append (h : Announced l) (more : List SignalAction) :
    Announced (l ++ more) := by
  obtain ⟨before, later, rfl, hnot⟩ := h
  exact ⟨before, later ++ more, by simp, hnot⟩

/-- An announcement is made once by the notifier, before it is dropped. -/
lemma announced_append_singleton {a : SignalAction} :
    Announced (l ++ [a]) ↔ Announced l ∨ a = .notify ∧ .dropNotifier ∉ l := by
  constructor
  · rintro ⟨before, later, h, hnot⟩
    rcases List.eq_nil_or_concat later with rfl | ⟨rest, last, rfl⟩
    · obtain ⟨rfl, hlast⟩ := List.append_inj' h rfl
      exact .inr ⟨List.singleton_inj.1 hlast, hnot⟩
    · rw [List.concat_eq_append, ← List.cons_append, ← List.append_assoc] at h
      obtain ⟨rfl, -⟩ := List.append_inj' h rfl
      exact .inl ⟨before, rest, rfl, hnot⟩
  · rintro (h | ⟨rfl, hnot⟩)
    · exact h.append _
    · exact ⟨l, [], rfl, hnot⟩

/-- Once the notifier is gone, nothing is announced any more. -/
lemma announced_append_dropNotifier {more : List SignalAction} :
    Announced (l ++ .dropNotifier :: more) ↔ Announced l := by
  induction more using List.reverseRecOn with
  | nil =>
    rw [announced_append_singleton]
    simp
  | append_singleton more a ih =>
    have hsplit : l ++ .dropNotifier :: (more ++ [a]) = l ++ .dropNotifier :: more ++ [a] := by simp
    rw [hsplit, announced_append_singleton, ih]
    simp

/-! ## What the notifier says -/

/-- Observers do not touch what they watch. -/
theorem lost_step (s : LossSignal) (a : SignalAction) : (s.step a).lost =
    match a with
    | .notify => if s.lost.isHeld then s.lost.set true else s.lost
    | .dropNotifier => s.lost.release
    | _ => s.lost := by
  cases a with
  | notify | subscribe | clone | wait =>
    simp only [step]
    split <;> rfl
  | dropNotifier | idle => rfl

/-- Only the notifier announces a loss, and it is not taken back. -/
theorem value_step (s : LossSignal) (a : SignalAction) : (s.step a).lost.value = true ↔
    s.lost.value = true ∨ a = .notify ∧ s.lost.isHeld = true := by
  rw [lost_step]
  cases a with
  | notify =>
    dsimp only
    split <;> simp_all [Watched.set]
  | subscribe | clone | wait | dropNotifier | idle => simp [Watched.release]

/-- Only dropping the notifier gives the sender up. -/
lemma isHeld_step (s : LossSignal) (a : SignalAction) :
    (s.step a).lost.isHeld = true ↔ s.lost.isHeld = true ∧ a ≠ .dropNotifier := by
  rw [lost_step]
  cases a with
  | notify =>
    dsimp only
    split <;> simp [Watched.set]
  | subscribe | clone | wait | dropNotifier | idle => simp [Watched.release]

/-- What the notifier has said and whether it is there is told by what has happened, and all waits
know it. -/
theorem lost_after (l : List SignalAction) : ((after l).lost.value = true ↔ Announced l) ∧
    ((after l).lost.isHeld = true ↔ .dropNotifier ∉ l) ∧ (after l).Settled := by
  induction l using List.reverseRecOn with
  | nil =>
    refine ⟨iff_of_false (by decide) not_announced_nil, by decide, ?_⟩
    exact fun w hw => absurd hw List.not_mem_nil
  | append_singleton l a ih =>
    obtain ⟨hvalue, hheld, hsettled⟩ := ih
    rw [after_append_singleton, value_step, isHeld_step, hvalue, hheld, announced_append_singleton]
    refine ⟨Iff.rfl, ?_, hsettled.step a⟩
    rw [List.mem_append, List.mem_singleton, not_or, ne_comm]

/-! ## What observers see -/

lemma length_reports (s : LossSignal) : s.reports.length = s.signals := List.length_replicate

lemma length_waits (s : LossSignal) : s.waits.length = s.pending.length := List.length_map _

/-- Every signal reports what the notifier has said. -/
theorem report_after {b : Bool} (h : b ∈ (after l).reports) : b = true ↔ Announced l := by
  rw [List.eq_of_mem_replicate h]
  exact (lost_after l).1

/-- A wait has ended if and only if the loss has been announced or the notifier is gone. -/
theorem wait_after {b : Bool} (h : b ∈ (after l).waits) :
    b = true ↔ Announced l ∨ .dropNotifier ∈ l := by
  obtain ⟨hvalue, hheld, hsettled⟩ := lost_after l
  obtain ⟨w, hw, rfl⟩ := List.mem_map.1 h
  rw [hsettled w hw, Watched.hasEnded_look, Bool.or_eq_true, Bool.not_eq_true', id, hvalue,
    ← Bool.not_eq_true, hheld, not_not]

/-- Nothing makes signals or waits fewer. -/
lemma length_step_le (s : LossSignal) (a : SignalAction) :
    s.reports.length ≤ (s.step a).reports.length ∧ s.waits.length ≤ (s.step a).waits.length := by
  simp only [length_reports, length_waits]
  cases a with
  | notify | subscribe | clone | wait =>
    simp only [step]
    split <;> simp [settle]
  | dropNotifier | idle => simp [step, settle]

/-- Reports and waits only become more. -/
lemma length_after_le (l more : List SignalAction) :
    (after l).reports.length ≤ (after (l ++ more)).reports.length ∧
      (after l).waits.length ≤ (after (l ++ more)).waits.length := by
  induction more using List.reverseRecOn with
  | nil => simp
  | append_singleton more a ih =>
    obtain ⟨hreports, hwaits⟩ := (after (l ++ more)).length_step_le a
    rw [← List.append_assoc, after_append_singleton]
    exact ⟨Nat.le_trans ih.1 hreports, Nat.le_trans ih.2 hwaits⟩

/-- What is said at a place is said for good, if a longer list says it everywhere. -/
lemma getElem?_of_length_le {bs cs : List Bool} (hle : bs.length ≤ cs.length)
    (hall : ∀ b ∈ cs, b = true) {i : Nat} (h : bs[i]? = some true) : cs[i]? = some true := by
  have hlt : i < cs.length := Nat.lt_of_lt_of_le (List.getElem?_eq_some_iff.1 h).1 hle
  rw [List.getElem?_eq_getElem hlt, hall cs[i] (List.getElem_mem hlt)]

/-! ## A loss that is announced again -/

/-- Two signals with as many observers and waits, which can have more under the same conditions. -/
structure Alike (s t : LossSignal) : Prop where
  signals : s.signals = t.signals
  isHeld : s.lost.isHeld = t.lost.isHeld
  waits : s.pending.length = t.pending.length

lemma Alike.step {s t : LossSignal} (h : s.Alike t) (a : SignalAction) :
    (s.step a).Alike (t.step a) := by
  obtain ⟨hsignals, hheld, hwaits⟩ := h
  cases a with
  | notify | subscribe | clone | wait =>
    simp only [LossSignal.step, hsignals, hheld]
    split <;> constructor <;> simp [settle, Watched.set, hsignals, hheld, hwaits]
  | dropNotifier | idle => constructor <;> simp [LossSignal.step, settle, Watched.release, *]

/-- A further announcement makes no difference to a signal that has fired. -/
lemma alike_notify (s : LossSignal) : (s.step .notify).Alike s := by
  simp only [step]
  split <;> constructor <;> simp [settle, Watched.set]

/-- What follows a further announcement is as if it had not been made. -/
lemma alike_after (l more : List SignalAction) :
    (after (l ++ .notify :: more)).Alike (after (l ++ more)) := by
  induction more using List.reverseRecOn with
  | nil =>
    rw [after_append_singleton, List.append_nil]
    exact alike_notify _
  | append_singleton more a ih =>
    have hsplit : l ++ .notify :: (more ++ [a]) = l ++ .notify :: more ++ [a] := by simp
    rw [hsplit, ← List.append_assoc, after_append_singleton, after_append_singleton]
    exact ih.step a

/-- Lists of nothing but the same answer are equal when they are equally long. -/
lemma eq_of_length_eq {bs cs : List Bool} (h : bs.length = cs.length)
    (hbs : ∀ b ∈ bs, b = true) (hcs : ∀ b ∈ cs, b = true) : bs = cs := by
  rw [List.eq_replicate_of_mem hbs, List.eq_replicate_of_mem hcs, h]

/-! ## The whole -/

/-- What observers see after all that has happened, and what they see from then on. -/
structure Latched (l : List SignalAction) : Prop where
  /-- A signal reports the loss if and only if it has been announced. -/
  fired : ∀ b ∈ (after l).reports, (b = true ↔ Announced l)
  /-- A wait has ended if and only if the loss has been announced or the notifier is gone. -/
  ended : ∀ b ∈ (after l).waits, (b = true ↔ Announced l ∨ .dropNotifier ∈ l)
  /-- No report is taken back. -/
  sticky : ∀ more (i : Nat), (after l).reports[i]? = some true →
    (after (l ++ more)).reports[i]? = some true
  /-- No wait that has ended goes on. -/
  final : ∀ more (j : Nat), (after l).waits[j]? = some true →
    (after (l ++ more)).waits[j]? = some true
  /-- To announce the loss again makes no difference, now or later. -/
  once : Announced l → ∀ more,
    (after (l ++ .notify :: more)).reports = (after (l ++ more)).reports ∧
      (after (l ++ .notify :: more)).waits = (after (l ++ more)).waits
  /-- If the notifier goes away before, all waits end and no signal ever reports a loss. -/
  silent : ¬Announced l → ∀ more,
    (∀ b ∈ (after (l ++ .dropNotifier :: more)).reports, b = false) ∧
      ∀ b ∈ (after (l ++ .dropNotifier :: more)).waits, b = true
  /-- There is a signal from the beginning, and another one for each that is taken or copied. -/
  first : 0 < (after l).reports.length
  subscribed : .dropNotifier ∉ l →
    (after (l ++ [.subscribe])).reports.length = (after l).reports.length + 1
  cloned : ∀ i < (after l).reports.length,
    (after (l ++ [.clone i])).reports.length = (after l).reports.length + 1
  /-- A wait may begin on every signal. -/
  begun : ∀ i < (after l).reports.length,
    (after (l ++ [.wait i])).waits.length = (after l).waits.length + 1

/-- Whatever has happened: every signal, whenever and from wherever it was taken, reports the loss
exactly if it has been announced; every wait, whenever it was begun, has ended exactly if the loss
has been announced or the notifier is gone; and nothing of this is ever taken back. -/
theorem latched_after (l : List SignalAction) : Latched l := by
  obtain ⟨hvalue, hheld, -⟩ := lost_after l
  have hgone : ∀ more, Announced (l ++ .dropNotifier :: more) ↔ Announced l := fun _ =>
    announced_append_dropNotifier
  refine
    { fired := fun b => report_after
      ended := fun b => wait_after
      sticky := fun more i h => ?_
      final := fun more j h => ?_
      once := fun h more => ?_
      silent := fun h more => ⟨fun b hb => ?_, fun b hb => ?_⟩
      first := Nat.lt_of_lt_of_le Nat.one_pos (length_after_le [] l).1
      subscribed := fun h => ?_
      cloned := fun i hi => ?_
      begun := fun i hi => ?_ }
  · have hannounced := (report_after (List.mem_of_getElem? h)).1 rfl
    exact getElem?_of_length_le (length_after_le l more).1
      (fun b hb => (report_after hb).2 (hannounced.append more)) h
  · have hended := (wait_after (List.mem_of_getElem? h)).1 rfl
    refine getElem?_of_length_le (length_after_le l more).2 (fun b hb => (wait_after hb).2 ?_) h
    exact hended.imp (·.append more) (List.mem_append_left _)
  · -- a further announcement leaves as many reports and waits, and all are true
    have halike := alike_after l more
    have hmore := h.append more
    have hagain := h.append (.notify :: more)
    constructor
    · refine eq_of_length_eq ?_ (fun b hb => (report_after hb).2 hagain)
        fun b hb => (report_after hb).2 hmore
      rw [length_reports, length_reports, halike.signals]
    · refine eq_of_length_eq ?_ (fun b hb => (wait_after hb).2 (.inl hagain))
        fun b hb => (wait_after hb).2 (.inl hmore)
      rw [length_waits, length_waits, halike.waits]
  · rw [← Bool.not_eq_true, report_after hb, hgone]
    exact h
  · exact (wait_after hb).2 (.inr (List.mem_append_right _ List.mem_cons_self))
  · rw [after_append_singleton, step, if_pos (hheld.2 h), length_reports, length_reports]
  · rw [length_reports] at hi ⊢
    rw [after_append_singleton, step, if_pos hi, length_reports]
  · rw [length_reports] at hi
    rw [after_append_singleton, step, if_pos hi, length_waits, length_waits, List.length_append]
    rfl

end LossSignal
end Switchboard
