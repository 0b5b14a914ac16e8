/-!
# Loss of a session

A session tells everyone who asks that it is lost, once and for good. Signals are taken from the
session's notifier or copied from other signals; each can be asked whether it has fired, and each
can be waited on. A wait ends when the signal fires and also when the notifier is gone, since
nothing can fire it then.

* `Watched` is a value that one side sets and the other watches. A wait looks at the value first
  (`look`) and then sleeps until the value is set again or its holder is gone (`resume`).
* `LossSignal.step` is one action, with all that waits do because of it.
-/

namespace Switchboard

/-! ## Watching a value -/

/-- A value that its holder sets and others watch. -/
structure Watched (α : Type) where
  value : α
  /-- How many times it has been set. -/
  version : Nat := 0
  /-- Whether the holder is still there. -/
  isHeld : Bool := true
deriving DecidableEq, Repr

/-- A wait for the value to be as wanted. -/
inductive Wait
  /-- The value was not as wanted when it had been set so many times. -/
  | asleep (seen : Nat)
  | ended
deriving DecidableEq, Repr

/-- Whether a wait has ended. -/
def Wait.hasEnded : Wait → Bool
  | asleep _ => false
  | ended => true

namespace Watched

variable {α : Type}

/-- Sets the value. -/
def set (w : Watched α) (value : α) : Watched α := { w with value, version := w.version + 1 }

/-- The holder goes away. -/
def release (w : Watched α) : Watched α := { w with isHeld := false }

/-- A wait that looks at the value. Without a holder there is nothing to wait for. -/
def look (w : Watched α) (wanted : α → Bool) : Wait :=
  if wanted w.value || !w.isHeld then .ended else .asleep w.version

/-- What a wait does when something has happened: it looks again if the value has been set since. -/
def resume (w : Watched α) (wanted : α → Bool) : Wait → Wait
  | .ended => .ended
  | .asleep seen =>
    if seen ≠ w.version then w.look wanted
    else if w.isHeld then .asleep seen
    else .ended

end Watched

/-! ## Signals -/

/-- A session's loss as its observers see it. -/
structure LossSignal where
  /-- Whether the loss has been announced, as the notifier says. -/
  lost : Watched Bool := { value := false }
  /-- How many signals there are. -/
  signals : Nat := 1
  /-- The waits that have been begun. -/
  pending : List Wait := []
deriving DecidableEq, Repr

/-- What may happen to a loss signal. -/
inductive SignalAction
  | notify
  /-- A new signal is taken from the notifier. -/
  | subscribe
  /-- A signal is copied. -/
  | clone (signal : Nat)
  /-- A wait begins on a copy of a signal. -/
  | wait (signal : Nat)
  | dropNotifier
  | idle
deriving DecidableEq, Repr

namespace LossSignal

/-- All waits go on as far as they can. -/
def settle (s : LossSignal) : LossSignal := { s with pending := s.pending.map (s.lost.resume id) }

/-- One action. Without a notifier there is nothing to announce or to subscribe to. -/
def step (s : LossSignal) : SignalAction → LossSignal
  | .notify => if s.lost.isHeld then { s with lost := s.lost.set true }.settle else s
  | .subscribe => if s.lost.isHeld then { s with signals := s.signals + 1 } else s
  | .clone i => if i < s.signals then { s with signals := s.signals + 1 } else s
  | .wait i => if i < s.signals then { s with pending := s.pending ++ [s.lost.look id] } else s
  | .dropNotifier => { s with lost := s.lost.release }.settle
  | .idle => s

/-- What every signal reports. -/
def reports (s : LossSignal) : List Bool := List.replicate s.signals s.lost.value

/-- Which waits have ended. -/
def waits (s : LossSignal) : List Bool := s.pending.map Wait.hasEnded

end LossSignal
end Switchboard
