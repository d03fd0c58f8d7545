import LclFastapi.Lib.Shield

/-!
# Draining a submitted update (`verbose/submission.py`)

`finish_file_update` hands `update` to a thread and waits for it under a shield. The model is one
call from its `create_task` on: the thread, the loop and any number of cancellations of the caller
at any point, before the thread starts, while it works, or in the tick in which it ends.

* The operation ends with a value or with any exception (`Raised`).
* **`drained`**: the call ends only after the thread has, and how it ends is `ending` of the
  outcome and of whether a cancellation arrived.
-/

namespace LclFastapi.Verbose.Submission

open Lib (Run)
open Lib.Shield

variable {ε α : Type}

/-- How the call ends; a cancellation carries its cause. -/
inductive Ending (ε α : Type) where
  | returned (a : α)
  | raised (e : Raised ε)
  | cancelled (cause : Option (Raised ε))
  deriving DecidableEq

/-- The code after the loop. A `BaseException` outside `Exception` passes both handlers. -/
def ending : Outcome ε α → Bool → Ending ε α
  | .ok a, false => .returned a
  | .ok _, true => .cancelled none
  | .error (.base e), _ => .raised (.base e)
  | .error e, false => .raised e
  | .error e, true => .cancelled (some e)

/-- An operation in its thread, and its waiter. -/
structure State (ε α : Type) where
  operation : Operation ε α
  waiter : Waiter
  ended : Option (Ending ε α)

/-- The operation has been submitted; a cancellation may already be pending. -/
structure Init (s : State ε α) : Prop where
  operation : s.operation = .queued
  waiter : s.waiter.caught = false
  ended : s.ended = none

/-- The steps. -/
inductive Label (ε α : Type) where
  | thread
  | cancel
  | inner
  | ended (e : Ending ε α)

/-- The steps of the thread, the waiter and its callers. -/
inductive Step : State ε α → Label ε α → State ε α → Prop
  /-- The thread or the task of the operation. -/
  | thread (s : State ε α) (op : Operation ε α) (h : Operation.Step s.operation op) :
      Step s .thread { s with operation := op }
  /-- The caller is cancelled. -/
  | cancel (s : State ε α) (hrun : s.ended = none) :
      Step s .cancel { s with waiter := s.waiter.cancel }
  | again (s : State ε α) (w : Waiter) (hrun : s.ended = none)
      (h : Again s.operation s.waiter w) : Step s .inner { s with waiter := w }
  | leave (s : State ε α) (o : Outcome ε α) (caught : Bool) (hrun : s.ended = none)
      (h : Leaves s.operation s.waiter o caught) :
      Step s (.ended (ending o caught)) { s with ended := some (ending o caught) }

/-- What one call guarantees. -/
structure Drained (r : Run (Step (ε := ε) (α := α))) : Prop where
  /-- The call has ended only after the operation has finished in its thread, as the outcome and
  the cancellations so far say. -/
  ends : ∀ j e, j < r.length → r.label j = .ended e → ∃ o caught,
    (r.state j).operation = .done o ∧ e = ending o caught ∧
      (caught = true ↔ (r.state 0).waiter.requested = true ∨ ∃ m, m < j ∧ r.label m = .cancel)
  /-- While the operation is under way the call has not ended. -/
  holds : ∀ j, j ≤ r.length → ¬ (r.state j).operation.Finished → (r.state j).ended = none

variable {s s' : State ε α} {l : Label ε α}

/-- A cancellation is remembered from its request on, and nothing else raises the flag. -/
theorem arrived_step (h : Step s l s') :
    s'.waiter.arrived = true ↔ s.waiter.arrived = true ∨ l = .cancel := by
  cases h with
  | cancel hrun => simp
  | again w hrun h =>
    have hw : w.arrived = s.waiter.arrived := h.arrived
    simp [hw]
  | thread | leave => simp

/-- The call ends over a done operation, and that stays done. -/
theorem ended_step (h : Step s l s') (hi : s.ended ≠ none → ∃ o, s.operation = .done o) :
    s'.ended ≠ none → ∃ o, s'.operation = .done o := by
  intro he
  cases h with
  | thread op h =>
    obtain ⟨o, ho⟩ := hi he
    exact absurd ho h.not_done
  | cancel | again => exact hi he
  | leave o caught hrun h => exact ⟨o, (leaves_iff.mp h).1⟩

theorem drained (r : Run (Step (ε := ε) (α := α))) (h0 : Init (r.state 0)) : Drained r where
  ends j e hj hl := by
    have hstep := r.step_ok j hj
    rw [hl] at hstep
    have hflag := Run.flag_iff (f := fun m => (r.state m).waiter.arrived = true)
      (E := fun m => r.label m = .cancel) (Nat.zero_le j)
      fun m _ hm => arrived_step (r.step_ok m (hm.trans hj))
    have hstart : (r.state 0).waiter.arrived = (r.state 0).waiter.requested := by
      unfold Waiter.arrived
      rw [h0.waiter, Bool.or_false]
    rw [hstart] at hflag
    generalize r.state (j + 1) = s' at hstep
    cases hstep with
    | leave o caught hrun h =>
      obtain ⟨hdone, rfl⟩ := leaves_iff.mp h
      refine ⟨o, _, hdone, rfl, hflag.trans (or_congr_right ?_)⟩
      exact ⟨fun ⟨m, _, hm, hc⟩ => ⟨m, hm, hc⟩, fun ⟨m, hm, hc⟩ => ⟨m, Nat.zero_le m, hm, hc⟩⟩
  holds j hj hrun := by
    have hdone := r.invariant (P := fun s => s.ended ≠ none → ∃ o, s.operation = .done o)
      (fun h => absurd h0.ended h) (fun _ _ _ h hi => ended_step h hi) j hj
    by_contra hend
    obtain ⟨o, ho⟩ := hdone hend
    exact hrun ⟨o, .inr ho⟩

end LclFastapi.Verbose.Submission
