import LclFastapi.Lib.Run

/-!
# Draining a shielded thread operation

A coroutine hands an operation to a thread through a task of its own and awaits that task under a
shield: cancelling the coroutine ends its current wait, not the operation, and the coroutine waits
again until the task is done.

* `Operation` is the task: queued for a thread, in the thread, returned from it, and done once the
  event loop has seen the outcome. Nobody cancels it.
* `Waiter` is the loop around the await: a cancellation is first requested, then delivered as
  `CancelledError` and caught.
* `Again` and `Leaves` are the two ways on from the await. **Leaving needs a done task**, and what
  the loop has caught by then is whether any cancellation arrived (`leaves_iff`).
-/

namespace LclFastapi.Lib.Shield

/-- An exception, by the narrowest `except` clause that handlers tell apart. -/
inductive Raised (ε : Type) where
  | osError (e : ε)
  /-- Any other `Exception`. -/
  | exception (e : ε)
  /-- A `BaseException` outside `Exception`. -/
  | base (e : ε)
  deriving DecidableEq

/-- What a thread hands back. -/
abbrev Outcome (ε α : Type) := Except (Raised ε) α

inductive Operation (ε α : Type) where
  | queued
  | running
  /-- The thread has finished; the loop has yet to see it. -/
  | returned (o : Outcome ε α)
  | done (o : Outcome ε α)

variable {ε α : Type} {op op' : Operation ε α} {o : Outcome ε α}

namespace Operation

/-- No thread works on the operation or will. -/
def Finished (op : Operation ε α) : Prop := ∃ o, op = .returned o ∨ op = .done o

inductive Step : Operation ε α → Operation ε α → Prop
  | begin : Step .queued .running
  | finish (o : Outcome ε α) : Step .running (.returned o)
  | complete (o : Outcome ε α) : Step (.returned o) (.done o)

/-- A done operation is at rest. -/
theorem Step.not_done (h : Step op op') : op ≠ .done o := by
  cases h <;> exact nofun

end Operation

/-- The loop at its await. -/
structure Waiter where
  /-- A cancellation that the next wake-up delivers. -/
  requested : Bool
  /-- The loop has caught one. -/
  caught : Bool
  deriving DecidableEq

namespace Waiter

/-- `task.cancel()` on the coroutine. -/
def cancel (w : Waiter) : Waiter := { w with requested := true }

/-- A cancellation has arrived since the loop began. -/
def arrived (w : Waiter) : Bool := w.requested || w.caught

@[simp] theorem arrived_cancel (w : Waiter) : w.cancel.arrived = true := rfl

end Waiter

/-- `CancelledError` is delivered and caught, and the task is not done: another wait. -/
inductive Again (op : Operation ε α) : Waiter → Waiter → Prop
  | caught (w : Waiter) (hreq : w.requested = true) (hd : ∀ o, op ≠ .done o) :
      Again op w ⟨false, true⟩

/-- The loop ends with the outcome `o`, holding a cancellation or not. -/
inductive Leaves : Operation ε α → Waiter → Outcome ε α → Bool → Prop
  /-- The await returned or raised the outcome. -/
  | woken (w : Waiter) (o : Outcome ε α) (hreq : w.requested = false) :
      Leaves (.done o) w o w.caught
  /-- `CancelledError` came first, and then the task was seen to be done. -/
  | cancelled (w : Waiter) (o : Outcome ε α) (hreq : w.requested = true) :
      Leaves (.done o) w o true

theorem Again.arrived {w w' : Waiter} (h : Again op w w') : w'.arrived = w.arrived := by
  cases h with
  | caught hreq hd =>
    unfold Waiter.arrived
    rw [hreq]
    rfl

/-- **The loop ends exactly with a done task**, and holds a cancellation exactly when one has
arrived. -/
theorem leaves_iff {w : Waiter} {c : Bool} : Leaves op w o c ↔ op = .done o ∧ c = w.arrived := by
  constructor
  · intro h
    cases h with
    | woken w o hreq =>
      refine ⟨rfl, ?_⟩
      unfold Waiter.arrived
      rw [hreq]
      rfl
    | cancelled w o hreq =>
      refine ⟨rfl, ?_⟩
      unfold Waiter.arrived
      rw [hreq]
      rfl
  · rintro ⟨rfl, rfl⟩
    obtain ⟨requested, caught⟩ := w
    cases requested with
    | false => exact .woken ⟨false, caught⟩ o rfl
    | true => exact .cancelled ⟨true, caught⟩ o rfl

end LclFastapi.Lib.Shield
