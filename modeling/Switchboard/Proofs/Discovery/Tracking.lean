import Switchboard.Discovery.Tracker
import Switchboard.Proofs.Domain.Heartbeat
import Switchboard.Proofs.Store.Count
import Switchboard.Proofs.Store.History

/-!
# What a tracker knows

A tracker is fed datagrams and told what to forget, in any order. What it knows is told by what has
happened to it alone: a domain is known if one of its heartbeats has been accepted since it was last
forgotten, and the latest one is stored.

* `Tracker.Change` lists what may become of a tracker by an action, with what it answers.
* `get?_after` and `knows_after` tell what is stored from what has happened.
* `balance_after` balances events against domains that were forgotten.
* `tracked_after` puts this together for all that may have happened.
-/

namespace Switchboard

/-- What may happen to a tracker. -/
inductive TrackerAction
  | receive (datagram : List UInt8) (limit : Nat)
  | forget (name : String)
deriving DecidableEq, Repr

/-- What a tracker answers. -/
inductive TrackerAnswer
  /-- The datagram is no heartbeat, or it is one and may be an event. -/
  | heard (outcome : Except Heartbeat.Error (Option DomainInfo))
  /-- Whether the domain was known. -/
  | forgotten (known : Bool)

namespace TrackerAction

/-- The domain that a datagram announces, if it is accepted. -/
def heard? : TrackerAction → Option DomainInfo
  | receive datagram limit =>
    if limit < datagram.length then none else (Heartbeat.decode datagram).toOption
  | forget _ => none

/-- The domain that an action is about: one whose heartbeat is accepted, or one to be forgotten. -/
def subject? : TrackerAction → Option String
  | forget name => some name
  | a => a.heard?.map DomainInfo.key

/-- A datagram is heard when it fits and is a heartbeat. -/
lemma heard?_receive (datagram : List UInt8) (limit : Nat) :
    (receive datagram limit).heard?
      = if limit < datagram.length then none else (Heartbeat.decode datagram).toOption := rfl

/-- A heartbeat is about the domain that it names. -/
lemma subject?_of_heard? {a : TrackerAction} {info : DomainInfo} (h : a.heard? = some info) :
    a.subject? = some info.key := by
  cases a with
  | receive datagram limit => exact congrArg (Option.map DomainInfo.key) h
  | forget name => exact absurd h (by simp [heard?])

/-- What is heard is a domain that can be routed to and reached. -/
lemma usable_of_heard? {a : TrackerAction} {info : DomainInfo} (h : a.heard? = some info) :
    checkDomainName info.name = .ok () ∧ (Ip.parse? info.address).isSome = true := by
  cases a with
  | forget name => exact absurd h (by simp [heard?])
  | receive datagram limit =>
    rw [heard?_receive] at h
    split at h
    · exact absurd h (by simp)
    obtain ⟨-, -, husable⟩ := Heartbeat.of_decode (Json.ok_of_toOption h)
    unfold Heartbeat.checkUsable at husable
    split at husable
    · exact absurd husable (by simp)
    next hname =>
    split at husable
    · next hendpoint =>
      rw [DomainInfo.endpoint?, Option.isSome_map] at hendpoint
      exact ⟨hname, hendpoint⟩
    · exact absurd husable (by simp)

end TrackerAction

/-- The event that an answer raises. -/
def TrackerAnswer.event? : TrackerAnswer → Option DomainInfo
  | heard (.ok event) => event
  | _ => none

namespace Tracker

/-! ## One action -/

/-- One action, with its answer. -/
def step (t : Tracker) : TrackerAction → TrackerAnswer × Tracker
  | .receive datagram limit =>
    (.heard (t.receive datagram limit).1, (t.receive datagram limit).2)
  | .forget name => (.forgotten (t.forget name).1, (t.forget name).2)

/-- What an action answers, and what becomes of a tracker by it. -/
inductive Change (t : Tracker) : TrackerAction → TrackerAnswer → Tracker → Prop
  | refused {datagram : List UInt8} {limit : Nat} {error : Heartbeat.Error}
    (h : (TrackerAction.receive datagram limit).heard? = none) :
    Change t (.receive datagram limit) (.heard (.error error)) t
  | heard {a : TrackerAction} {info : DomainInfo} (h : a.heard? = some info) :
    Change t a (.heard (.ok (if t.knows info.key then none else some info)))
      ⟨t.known.insert info.key info⟩
  | forgotten (name : String) :
    Change t (.forget name) (.forgotten (t.knows name)) ⟨t.known.erase name⟩

/-- Every action is one of the changes. -/
theorem change_step (t : Tracker) (a : TrackerAction) : t.Change a (t.step a).1 (t.step a).2 := by
  cases a with
  | forget name => exact .forgotten name
  | receive datagram limit =>
    have hheard := TrackerAction.heard?_receive datagram limit
    simp only [step, receive]
    split at hheard
    · next hsize =>
      rw [if_pos hsize]
      exact .refused hheard
    · next hsize =>
      rw [if_neg hsize]
      cases hdecode : Heartbeat.decode datagram with
      | error error =>
        rw [hdecode] at hheard
        exact .refused hheard
      | ok info =>
        rw [hdecode] at hheard
        exact .heard hheard

lemma knows_insert (t : Tracker) (info : DomainInfo) (k : String) :
    (Tracker.mk (t.known.insert info.key info)).knows k
      = (decide (k = info.key) || t.knows k) := by
  simp only [knows, Table.contains, Table.get?_insert]
  by_cases hk : k = info.key <;> simp [hk]

lemma knows_erase (t : Tracker) (name k : String) :
    (Tracker.mk (t.known.erase name)).knows k = (!decide (k = name) && t.knows k) := by
  simp only [knows, Table.contains, Table.get?_erase]
  by_cases hk : k = name <;> simp [hk]

/-- What is stored of other domains stays as it is. -/
lemma get?_step_of_ne (t : Tracker) {a : TrackerAction} {k : String}
    (h : a.subject? ≠ some k) : (t.step a).2.known.get? k = t.known.get? k := by
  have hchange := t.change_step a
  generalize (t.step a).1 = answer, (t.step a).2 = t' at hchange ⊢
  cases hchange with
  | refused => rfl
  | @heard _ info hinfo =>
    rw [TrackerAction.subject?_of_heard? hinfo] at h
    exact (Table.get?_insert ..).trans (if_neg fun he => h (congrArg some he.symm))
  | forgotten name =>
    exact (Table.get?_erase ..).trans (if_neg fun he => h (congrArg some he.symm))

/-- An answer raises an event if and only if a domain is heard that is not known, and the event is
what has been heard of it. -/
theorem event?_step (t : Tracker) (a : TrackerAction) (info : DomainInfo) :
    (t.step a).1.event? = some info ↔ a.heard? = some info ∧ t.knows info.key = false := by
  have hchange := t.change_step a
  generalize (t.step a).1 = answer, (t.step a).2 = t' at hchange ⊢
  cases hchange with
  | refused h => simp [TrackerAnswer.event?, h]
  | @heard _ x h =>
    rw [h, TrackerAnswer.event?]
    cases hx : t.knows x.key <;> grind
  | forgotten name => simp [TrackerAnswer.event?, TrackerAction.heard?]

/-! ## All that has happened -/

/-- A tracker after all that has happened to it, the latest first. -/
def after : List TrackerAction → Tracker
  | [] => {}
  | a :: l => ((after l).step a).2

/-- What has happened, each with its answer, the latest first. -/
def answers : List TrackerAction → List (TrackerAction × TrackerAnswer)
  | [] => []
  | a :: l => (a, ((after l).step a).1) :: answers l

/-- Whether an event has been raised for a domain. -/
def isRaised (k : String) (p : TrackerAction × TrackerAnswer) : Bool :=
  p.2.event?.any fun info => info.key = k

/-- Whether a domain was forgotten that had been known. -/
def isForgotten (k : String) : TrackerAction × TrackerAnswer → Bool
  | (.forget name, .forgotten known) => name = k && known
  | _ => false

/-- A heartbeat of a domain has been accepted since the domain was last forgotten. -/
def Heard (l : List TrackerAction) (k : String) : Prop :=
  Since (fun a => ∃ info, a.heard? = some info ∧ info.key = k) (· = .forget k) l

/-- The latest heartbeat of a domain, with nothing about the domain since. -/
def Latest (l : List TrackerAction) (k : String) (info : DomainInfo) : Prop :=
  Since (fun a => a.heard? = some info ∧ info.key = k) (fun a => a.subject? = some k) l

/-- What is stored of a domain is its latest heartbeat. -/
theorem get?_after (l : List TrackerAction) (k : String) (info : DomainInfo) :
    (after l).known.get? k = some info ↔ Latest l k info := by
  induction l with
  | nil =>
    rw [Latest, iff_false_intro Since.not_nil]
    simp [after]
  | cons a l ih =>
    rw [Latest, Since.cons_iff, ← Latest, ← ih]
    -- an action about another domain changes neither side
    by_cases hk : a.subject? = some k
    · have hchange := (after l).change_step a
      rw [after]
      generalize ((after l).step a).1 = answer, ((after l).step a).2 = t' at hchange ⊢
      cases hchange with
      | refused h => simp [TrackerAction.subject?, h] at hk
      | @heard _ x h =>
        obtain rfl : x.key = k :=
          Option.some.inj ((TrackerAction.subject?_of_heard? h).symm.trans hk)
        simp only [Table.get?_insert, if_true, h, hk]
        grind
      | forgotten name =>
        obtain rfl : name = k := Option.some.inj hk
        simp [TrackerAction.heard?, TrackerAction.subject?]
    · have hnot : ¬(a.heard? = some info ∧ info.key = k) := by
        rintro ⟨h, rfl⟩
        exact hk (TrackerAction.subject?_of_heard? h)
      rw [after, get?_step_of_ne _ hk]
      simp [hk, hnot]

/-- A domain is known if and only if it has been heard since it was last forgotten. -/
theorem knows_after (l : List TrackerAction) (k : String) :
    (after l).knows k = true ↔ Heard l k := by
  -- over the history, whose last action stands first
  induction l with
  | nil =>
    rw [Heard, iff_false_intro Since.not_nil]
    simp [after, knows, Table.contains]
  | cons a l ih =>
    rw [Heard, Since.cons_iff, ← Heard, ← ih]
    have hchange := (after l).change_step a
    rw [after]
    generalize ((after l).step a).1 = answer, ((after l).step a).2 = t' at hchange ⊢
    cases hchange with
    | refused h => simp [h]
    | @heard _ x h =>
      have hne : a ≠ .forget k := fun he => absurd (he ▸ h) (by simp [TrackerAction.heard?])
      have hx : (∃ info, some x = some info ∧ info.key = k) ↔ k = x.key := by
        refine ⟨?_, fun he => ⟨x, rfl, he.symm⟩⟩
        rintro ⟨info, hinfo, rfl⟩
        rw [Option.some.inj hinfo]
      rw [knows_insert, h, hx, Bool.or_eq_true, decide_eq_true_eq]
      exact or_congr_right ⟨fun hk => ⟨hne, hk⟩, And.right⟩
    | forgotten name =>
      have hne : ¬TrackerAction.forget name = .forget k ↔ ¬k = name := by
        rw [TrackerAction.forget.injEq, eq_comm]
      have hnot : (TrackerAction.forget name).heard? = none := rfl
      rw [knows_erase, hnot, hne]
      simp

/-- An action that raises an event for a domain makes it known, and one that forgets a known domain
undoes this. -/
theorem balance_step (t : Tracker) (a : TrackerAction) (k : String) :
    (isRaised k (a, (t.step a).1)).toNat + (t.knows k).toNat
      = (isForgotten k (a, (t.step a).1)).toNat + ((t.step a).2.knows k).toNat := by
  have hchange := t.change_step a
  generalize (t.step a).1 = answer, (t.step a).2 = t' at hchange ⊢
  cases hchange with
  | refused => rfl
  | @heard _ x h =>
    have hnot : isForgotten k (a, .heard (.ok (if t.knows x.key then none else some x)))
        = false := by
      cases a <;> rfl
    rw [hnot, knows_insert, isRaised, TrackerAnswer.event?]
    by_cases hk : k = x.key
    · subst hk
      cases hknown : t.knows x.key <;> simp
    · cases hknown : t.knows x.key <;> simp [hk, eq_comm]
  | forgotten name =>
    have hevent : isRaised k (.forget name, .forgotten (t.knows name)) = false := rfl
    rw [hevent, knows_erase, isForgotten]
    by_cases hk : k = name
    · subst hk
      simp
    · simp [hk, eq_comm]

/-- The events for a domain are as many as the times it was forgotten, and one more while it is
known. -/
theorem balance_after (l : List TrackerAction) (k : String) :
    (answers l).countP (isRaised k)
      = (answers l).countP (isForgotten k) + ((after l).knows k).toNat := by
  induction l with
  | nil => rfl
  | cons a l ih =>
    have hstep := (after l).balance_step a k
    rw [answers, after, List.countP_cons, List.countP_cons]
    cases hraised : isRaised k (a, ((after l).step a).1) <;>
      cases hforgotten : isForgotten k (a, ((after l).step a).1) <;>
      simp only [hraised, hforgotten, Bool.toNat_true, Bool.toNat_false] at hstep ⊢ <;> grind

/-! ## The whole -/

/-- What is true of a tracker after all that has happened to it, the latest first. -/
structure Tracked (t : Tracker) (l : List TrackerAction) : Prop where
  /-- A domain is known if and only if it has been heard since it was last forgotten. -/
  known : ∀ k, t.knows k = true ↔ Heard l k
  /-- The events for a domain are as many as the times it was forgotten, and one more while it is
  known. -/
  balance : ∀ k, (answers l).countP (isRaised k)
    = (answers l).countP (isForgotten k) + if t.knows k then 1 else 0
  /-- What is stored is the latest heartbeat. -/
  stored : ∀ k info, t.known.get? k = some info ↔ Latest l k info
  /-- It can be routed to and reached. -/
  usable : ∀ k info, t.known.get? k = some info →
    info.key = k ∧ checkDomainName info.name = .ok () ∧ (Ip.parse? info.address).isSome = true
  /-- There are as many entries as there are domains that are known. -/
  size : ∃ names : List String, names.Nodup ∧ (∀ k, k ∈ names ↔ t.knows k = true) ∧
    t.known.size = names.length
  /-- An event carries what the heartbeat said that raised it. -/
  carried : ∀ p ∈ answers l, ∀ info, p.2.event? = some info → p.1.heard? = some info
  /-- A heartbeat that is accepted raises an event if and only if its domain is not known. -/
  event : ∀ a info, (t.step a).1.event? = some info ↔
    a.heard? = some info ∧ t.knows info.key = false
  /-- A datagram is accepted if and only if the answer is no error. -/
  accepted : ∀ datagram limit, (TrackerAction.receive datagram limit).heard? = none ↔
    ∃ error, (t.step (.receive datagram limit)).1 = .heard (.error error)
  /-- An error leaves everything as it is. -/
  refused : ∀ a error, (t.step a).1 = .heard (.error error) → (t.step a).2 = t
  /-- An action about another domain leaves what is stored of this one as it is. -/
  aside : ∀ a k, a.subject? ≠ some k → (t.step a).2.known.get? k = t.known.get? k

/-- An event is about a heartbeat that was heard. -/
lemma heard?_of_mem_answers {l : List TrackerAction} {p : TrackerAction × TrackerAnswer}
    (hp : p ∈ answers l) {info : DomainInfo} (h : p.2.event? = some info) :
    p.1.heard? = some info := by
  induction l with
  | nil => exact absurd hp (by simp [answers])
  | cons a l ih =>
    rcases List.mem_cons.1 hp with rfl | hp
    · exact (((after l).event?_step a info).1 h).1
    · exact ih hp

/-- The stored heartbeat of a domain is one of its own, and usable. -/
theorem Latest.usable {l : List TrackerAction} {k : String} {info : DomainInfo}
    (h : Latest l k info) :
    info.key = k ∧ checkDomainName info.name = .ok () ∧ (Ip.parse? info.address).isSome = true := by
  obtain ⟨-, a, -, -, ⟨ha, hk⟩, -⟩ := h
  exact ⟨hk, TrackerAction.usable_of_heard? ha⟩

/-- After any sequence of datagrams and of domains to be forgotten, what the tracker knows, stores
and has raised events for is told by that sequence. -/
theorem tracked_after (l : List TrackerAction) : (after l).Tracked l := by
  refine
    { known := knows_after l
      balance := fun k => ?_
      stored := get?_after l
      usable := fun k info h => ((get?_after l k info).1 h).usable
      size := ⟨(after l).known.keys, Table.nodup_keys _, fun k => Table.mem_keys_iff, ?_⟩
      carried := fun p hp info h => heard?_of_mem_answers hp h
      event := (after l).event?_step
      accepted := fun datagram limit => ?_
      refused := fun a error h => ?_
      aside := fun a k h => (after l).get?_step_of_ne h }
  · rw [balance_after]
    cases (after l).knows k <;> rfl
  · exact (List.length_map ..).symm
  · have hchange := (after l).change_step (.receive datagram limit)
    generalize ((after l).step (.receive datagram limit)).1 = answer at hchange ⊢
    generalize ((after l).step (.receive datagram limit)).2 = t' at hchange
    cases hchange with
    | refused h => simp [h]
    | heard h => simp [h]
  · have hchange := (after l).change_step a
    rw [h] at hchange
    generalize ((after l).step a).2 = t' at hchange ⊢
    cases hchange with
    | refused => rfl

end Tracker
end Switchboard
