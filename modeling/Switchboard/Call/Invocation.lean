import Switchboard.Call.Result

/-!
# Invocations

An invocation is a call that has reached a handler. The handler answers it by giving it up together
with a reply, so a call is answered at most once; a handler that gives it up without a reply leaves
the caller with nothing to wait for.

* `ReplySlot` is what the caller waits at: the first answer stays, and so does abandonment.
* `HeldInvocation` is an invocation in the hands of its handler, with the slot of its caller.
-/

namespace Switchboard

/-- A call as its handler sees it. -/
structure Invocation where
  procedure : Option String
  args : Args := []
  kwargs : KwArgs := []
deriving DecidableEq, Repr, Inhabited

/-- What a handler answers. -/
inductive Reply
  | result (value : CallResult)
  | error (message : String)
deriving DecidableEq, Repr

/-- Where a caller waits for its reply. -/
inductive ReplySlot
  | waiting
  | answered (reply : Reply)
  /-- The caller has left, or the invocation is gone without a reply. -/
  | abandoned
deriving DecidableEq, Repr

namespace ReplySlot

/-- A reply arrives. -/
def answer (reply : Reply) : ReplySlot → ReplySlot
  | waiting => answered reply
  | slot => slot

/-- The caller leaves, or the invocation goes without a reply. -/
def abandon : ReplySlot → ReplySlot
  | waiting => abandoned
  | slot => slot

/-- Whether the caller still waits. -/
def isWaiting : ReplySlot → Bool
  | waiting => true
  | _ => false

/-- A slot that no longer waits keeps what it holds. -/
theorem answer_of_not_waiting {slot : ReplySlot} (h : slot.isWaiting = false) (reply : Reply) :
    slot.answer reply = slot := by
  cases slot with
  | waiting => exact absurd h (by decide)
  | answered _ => rfl
  | abandoned => rfl

end ReplySlot

namespace Invocation

/-- Takes the arguments out, leaving none behind. -/
def takeArguments (i : Invocation) : CallResult × Invocation :=
  (⟨i.args, i.kwargs⟩, { i with args := [], kwargs := [] })

end Invocation

/-- An invocation as long as its handler holds it, with the slot of its caller. -/
structure HeldInvocation where
  invocation : Option Invocation
  slot : ReplySlot := .waiting
deriving DecidableEq, Repr

/-- What may happen to a held invocation. -/
inductive HandlerAction
  | take
  | reply (reply : Reply)
  | drop
  /-- The caller no longer waits. -/
  | leave
  | idle
deriving DecidableEq, Repr

namespace HeldInvocation

/-- One action, with the arguments it takes out. -/
def step (h : HeldInvocation) : HandlerAction → Option CallResult × HeldInvocation
  | .take =>
    match h.invocation with
    | none => (none, h)
    | some i =>
      let (taken, i) := i.takeArguments
      (some taken, { h with invocation := some i })
  | .reply r =>
    match h.invocation with
    | none => (none, h)
    | some _ => (none, ⟨none, h.slot.answer r⟩)
  | .drop =>
    match h.invocation with
    | none => (none, h)
    | some _ => (none, ⟨none, h.slot.abandon⟩)
  | .leave => (none, { h with slot := h.slot.abandon })
  | .idle => (none, h)

end HeldInvocation
end Switchboard
