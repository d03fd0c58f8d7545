import LclFastapi.Health.Draining
import Mathlib.Tactic.IntervalCases

/-!
# Publishing during teardown (`service.py`: `worker_lifespan`)

The `publish` callback of the worker's sampler runs in a thread and reads the application's
`background_manager` twice: for the test against `None`, and for the call of `snapshot()`. The
lifespan clears the attribute on the event loop before its exit stack stops the sampler.

* The sampler is that of `Sampler.lean`; the thread of a publication takes the steps of the
  callback, and nobody but the exit stack calls `stop`.
* From the clearing to the cancellation in `stop` there is no await: threads go on in between, the
  event loop does not.
* The rest of the callback raises nothing but `OSError`, and `system_snapshot` raises nothing: it
  reports its errors as fields.
* `Clean`: the attribute is not cleared between the test of a callback and its use.
* **`safe_of_clean`**: in a run whose steps are clean no callback fails on a cleared manager. In
  every run the sampling task ends by its cancellation only, and `stop` does not raise.
* `clearedInBetween`: one unclean step, after which the callback fails. By the time the event loop
  sees that, the `refresh` around it has been cancelled (`Stopping`).
-/

namespace LclFastapi.Health.Teardown

open Lib (Run)
open Lib.Shield

variable {ε : Type}

/-- Where the thread of a publication is in `publish`. -/
inductive PC where
  /-- At `if self.background_manager is not None`. -/
  | check
  /-- At `self.background_manager.snapshot()`. -/
  | use
  /-- Past the manager. -/
  | rest
  deriving DecidableEq

/-- Where `worker_lifespan` is. -/
inductive Lifespan where
  /-- Anywhere before its `finally`. -/
  | running
  /-- The application's attributes are cleared, the exit stack is not unwound. -/
  | torn
  /-- The exit stack has called `stop`. -/
  | stopping
  deriving DecidableEq

/-- The sampler, the attribute and the two parties that read and clear it. -/
structure State (ε : Type) where
  sampler : Health.State ε
  /-- `self.background_manager is not None`. -/
  manager : Bool
  pc : Nat → PC
  lifespan : Lifespan

/-- The sampler has been created. -/
structure Init (s : State ε) : Prop where
  sampler : Health.Init s.sampler
  manager : s.manager = false
  pc : ∀ k, s.pc k = .check
  lifespan : s.lifespan = .running

/-- Who takes a step. -/
inductive Label (ε : Type) where
  | sampler (l : Health.Label ε)
  | thread (k : Nat)
  /-- `AttributeError` in the callback. -/
  | fails (k : Nat)
  | create
  | clear
  | exit

/-- The steps of the sampler that are neither the callback's nor the lifespan's. -/
structure Own (s : Health.State ε) (l : Health.Label ε) (s' : Health.State ε) : Prop where
  step : Health.Step s l s'
  callback : ∀ k, l ≠ .thread k
  /-- `system_snapshot` does not raise. -/
  collecting : ∀ c e, l = .ended c (.raised e) none → s.refresh c ≠ .collecting false
  stops : ∀ n, s.stops n = .idle → s'.stops n = .idle

/-- Publication `k` goes on to `op`, and its callback to `pc`. -/
def State.next (s : State ε) (k : Nat) (op : Operation ε Unit) (pc : PC) : State ε :=
  { s with
    sampler :=
      { s.sampler with publications := Function.update s.sampler.publications k (some op) }
    pc := Function.update s.pc k pc }

/-- The outcomes that the sampling loop tolerates. -/
def Tolerated (o : Outcome ε Unit) : Prop := o = .ok () ∨ ∃ e, o = .error (.osError e)

inductive Step (attributeError : ε) : State ε → Label ε → State ε → Prop
  | sampler (s : State ε) (l : Health.Label ε) (s' : Health.State ε) (hl : s.lifespan ≠ .torn)
      (h : Own s.sampler l s') : Step attributeError s (.sampler l) { s with sampler := s' }
  | begin (s : State ε) (k : Nat) (h : s.sampler.publications k = some .queued) :
      Step attributeError s (.thread k) (s.next k .running .check)
  | check (s : State ε) (k : Nat) (h : s.sampler.publications k = some .running)
      (hpc : s.pc k = .check) :
      Step attributeError s (.thread k)
        { s with pc := Function.update s.pc k (if s.manager then .use else .rest) }
  | use (s : State ε) (k : Nat) (h : s.sampler.publications k = some .running)
      (hpc : s.pc k = .use) (hm : s.manager = true) :
      Step attributeError s (.thread k) { s with pc := Function.update s.pc k .rest }
  /-- `AttributeError: 'NoneType' object has no attribute 'snapshot'`. -/
  | useNone (s : State ε) (k : Nat) (h : s.sampler.publications k = some .running)
      (hpc : s.pc k = .use) (hm : s.manager = false) :
      Step attributeError s (.fails k)
        (s.next k (.returned (.error (.exception attributeError))) .rest)
  /-- The refresh of the file control and `runtime.publish`. -/
  | rest (s : State ε) (k : Nat) (o : Outcome ε Unit)
      (h : s.sampler.publications k = some .running) (hpc : s.pc k = .rest)
      (ho : Tolerated o) :
      Step attributeError s (.thread k) (s.next k (.returned o) .rest)
  /-- The event loop sees the outcome. -/
  | complete (s : State ε) (k : Nat) (o : Outcome ε Unit) (hl : s.lifespan ≠ .torn)
      (h : s.sampler.publications k = some (.returned o)) :
      Step attributeError s (.thread k) (s.next k (.done o) (s.pc k))
  /-- `self.background_manager = BackgroundManager(...)`. -/
  | create (s : State ε) (hl : s.lifespan = .running) (hs : s.sampler.start = .returned) :
      Step attributeError s .create { s with manager := true }
  /-- The `finally` of the lifespan, after `start` of the sampler has ended. -/
  | clear (s : State ε) (hl : s.lifespan = .running)
      (hs : s.sampler.start = .returned ∨ ∃ e, s.sampler.start = .failed e) :
      Step attributeError s .clear { s with manager := false, lifespan := .torn }
  /-- The exit stack calls `self.health_sampler.stop`. -/
  | exit (s : State ε) (l : Health.Label ε) (s' : Health.State ε) (hl : s.lifespan = .torn)
      (hcall : l = .stop 0 ∨ l = .stopped 0) (hidle : s.sampler.stops 0 = .idle)
      (h : Health.Step s.sampler l s') :
      Step attributeError s .exit { s with sampler := s', lifespan := .stopping }

variable {attributeError : ε} {s s' : State ε} {l : Label ε}

/-- The attribute is not cleared between the test of a callback and its use. -/
def Clean (s : State ε) (l : Label ε) : Prop := l = .clear → ∀ k, s.pc k ≠ .use

/-! ## Steps of the sampler -/

section Sampler

variable {m m' : Health.State ε} {x : Health.Label ε}

/-- Publications go on in threads only. -/
theorem publications_own (h : Health.Step m x m') (hx : ∀ k, x ≠ .thread k) {k : Nat}
    {op : Operation ε Unit} (hop : m'.publications k = some op) :
    m.publications k = some op ∨ op = .queued := by
  rcases publications_step h with ⟨-, he, -⟩ | ⟨c, -, -, he⟩ | ⟨j, op, op', hl, -, -, -, -⟩
  · exact .inl (he ▸ hop)
  · rw [he, Function.update_apply] at hop
    split at hop
    · exact .inr (Option.some.inj hop).symm
    · exact .inl hop
  · exact absurd hl (hx j)

/-- Nobody has called `stop`, and without a task there is nothing to cancel. -/
structure Unstopped (m : Health.State ε) : Prop where
  stops : ∀ n, m.stops n = .idle
  task : m.task = false → m.sampling = .none

theorem Unstopped.step (hu : Unstopped m) (ht : Turn m) (h : Own m x m') : Unstopped m' := by
  refine ⟨fun n => h.stops n (hu.stops n), ?_⟩
  -- with a task there is no `refresh` of `start`, and without one no other
  have refreshed {c : Caller} {e : Ending ε} (hc : m.refresh c ≠ .idle)
      (htask : (m.refreshed c e).task = false) : (m.refreshed c e).sampling = .none := by
    cases c with
    | start =>
      cases e with
      | returned => exact absurd htask nofun
      | raised | cancelled => exact hu.task htask
    | sampling =>
      have hm : (m.refreshed .sampling e).task = m.task := by
        unfold State.refreshed
        split <;> first | rfl | contradiction
      exact absurd ((hu.task (hm ▸ htask)).symm.trans (ht.sampling hc)) nofun
  have idle {n : Nat} {q : Bool} (hw : m.stops n = .waiting q) : False :=
    absurd ((hu.stops n).symm.trans hw) nofun
  obtain ⟨hstep, -, -, hstops⟩ := h
  intro htask
  cases hstep with
  | first h | timer h => exact absurd (h.symm.trans (hu.task htask)) nofun
  | endTask h => rcases h with h | h <;> exact absurd (h.symm.trans (hu.task htask)) nofun
  | collectFail c e h | collectCancel c h => exact refreshed (by rw [h]; exact nofun) htask
  | leave c k w op o caught h => exact refreshed (by rw [h]; exact nofun) htask
  | cancel c =>
    rw [cancel_sampling_iff m c (.inl rfl)]
    cases c <;> exact hu.task htask
  | stop n h' ht' =>
    exact absurd (hstops n h') (by simp [State.setStop])
  | cancelStop n q h | cancelStopEnded n q e h | stopped n q e h | stopRaised n e h =>
    exact (idle h).elim
  | start | submit | again | thread | stopNone => exact hu.task htask

/-- What the end of a `refresh` means for the sampling task. -/
theorem refreshed_ended {c : Caller} {a e : Ending ε} (h : (m.refreshed c a).sampling = .ended e) :
    m.sampling = .ended e ∨ (e = a ∧ a ≠ .returned ∧ ∀ x, a ≠ .raised (.osError x)) := by
  unfold State.refreshed at h
  split at h
  · exact absurd h nofun
  · exact .inl h
  · exact absurd h nofun
  · exact absurd h nofun
  · rename_i hne hos
    exact .inr ⟨(Sampling.ended.inj h).symm, hne, hos⟩

/-- A `refresh` with a tolerated outcome returns, is cancelled or raises the `OSError`. -/
theorem ending_of_tolerated {o : Outcome ε Unit} (ho : Tolerated o) (caught : Bool) :
    (refreshEnding o caught).1 = .returned ∨ (refreshEnding o caught).1 = .cancelled ∨
      ∃ x, (refreshEnding o caught).1 = .raised (.osError x) := by
  rcases ho with rfl | ⟨e, rfl⟩ <;> cases caught
  · exact .inl rfl
  · exact .inr (.inl rfl)
  · exact .inr (.inr ⟨e, rfl⟩)
  · exact .inr (.inl rfl)

/-- `start` has returned or failed. -/
def Over (m : Health.State ε) : Prop := m.start = .returned ∨ ∃ e, m.start = .failed e

theorem Over.idle (ho : Over m) (ht : Turn m) : m.refresh .start = .idle := by
  by_contra hne
  have hstart := ht.starting hne
  rcases ho with h | ⟨e, h⟩ <;> exact absurd (hstart.symm.trans h) nofun

theorem Over.step (ho : Over m) (ht : Turn m) (h : Health.Step m x m') : Over m' := by
  have hidle := ho.idle ht
  have refreshed {c : Caller} {e : Ending ε} (hc : m.refresh c ≠ .idle) :
      Over (m.refreshed c e) := by
    cases c with
    | start => exact absurd hidle hc
    | sampling =>
      have hstart : (m.refreshed .sampling e).start = m.start := by
        unfold State.refreshed
        split <;> first | rfl | contradiction
      rw [Over, hstart]
      exact ho
  cases h with
  | start h => rcases ho with h' | ⟨e, h'⟩ <;> exact absurd (h.symm.trans h') nofun
  | collectFail c e h | collectCancel c h => exact refreshed (by rw [h]; exact nofun)
  | leave c k w op o caught h => exact refreshed (by rw [h]; exact nofun)
  | cancel c =>
    rw [Over, cancel_start]
    exact ho
  | _ => exact ho

/-- The sampling task, if any, has been cancelled. -/
structure Stopping (m : Health.State ε) : Prop where
  created : m.sampling ≠ .created false
  sleeping : m.sampling ≠ .sleeping false
  refresh : m.refresh .sampling ≠ .idle → (m.refresh .sampling).arrived = true

theorem stopping_cancel (m : Health.State ε) : Stopping (m.cancel .sampling) := by
  have hsampling : (m.cancel .sampling).sampling = m.sampling.cancel := rfl
  refine ⟨?_, ?_, fun hne => ?_⟩
  · rw [hsampling]
    cases m.sampling <;> exact nofun
  · rw [hsampling]
    cases m.sampling <;> exact nofun
  · rw [cancel_refresh, if_pos rfl] at hne ⊢
    cases hr : m.refresh .sampling with
    | idle => rw [hr] at hne; exact absurd rfl hne
    | collecting | draining => rfl

/-- A cancelled `refresh` moves on to the end of the task only. -/
theorem Stopping.step (hs : Stopping m) (ht : Turn m) (ho : Over m) (h : Health.Step m x m') :
    Stopping m' := by
  have hidle := ho.idle ht
  have arrived {c : Caller} (hc : m.refresh c ≠ .idle) :
      c = .sampling ∧ (m.refresh .sampling).arrived = true := by
    cases c with
    | start => exact absurd hidle hc
    | sampling => exact ⟨rfl, hs.refresh hc⟩
  have ended {e : Ending ε} (hret : e ≠ .returned) (hos : ∀ y, e ≠ .raised (.osError y)) :
      Stopping (m.refreshed .sampling e) := by
    have hsampling : (m.refreshed .sampling e).sampling = .ended e := by
      unfold State.refreshed
      split <;> first | rfl | contradiction | exact absurd rfl (hos _)
    refine ⟨by rw [hsampling]; exact nofun, by rw [hsampling]; exact nofun, fun hne => ?_⟩
    exact absurd (by rw [refreshed_refresh, if_pos rfl]) hne
  cases h with
  | start h => rcases ho with h' | ⟨e, h'⟩ <;> exact absurd (h.symm.trans h') nofun
  | first h => exact absurd h hs.created
  | timer h => exact absurd h hs.sleeping
  | endTask h => exact ⟨nofun, nofun, hs.refresh⟩
  | submit c h | collectFail c e h =>
    obtain ⟨rfl, ha⟩ := arrived (c := c) (by rw [h]; exact nofun)
    rw [h] at ha
    exact absurd ha nofun
  | collectCancel c h =>
    obtain ⟨rfl, -⟩ := arrived (c := c) (by rw [h]; exact nofun)
    exact ended nofun nofun
  | again c k w w' op h hop hw =>
    obtain ⟨rfl, ha⟩ := arrived (c := c) (by rw [h]; exact nofun)
    refine ⟨hs.created, hs.sleeping, fun _ => ?_⟩
    rw [h] at ha
    rw [setRefresh_refresh, if_pos rfl]
    exact hw.arrived.trans ha
  | leave c k w op o caught h hop hw =>
    obtain ⟨rfl, ha⟩ := arrived (c := c) (by rw [h]; exact nofun)
    obtain ⟨-, rfl⟩ := leaves_iff.mp hw
    rw [h] at ha
    have hcaught : w.arrived = true := ha
    rw [hcaught]
    -- a cancelled `refresh` neither returns nor raises an `OSError`
    refine ended ?_ fun y => ?_ <;> rcases o with (e | e | e) | u <;> exact nofun
  | cancel c =>
    cases c with
    | sampling => exact stopping_cancel m
    | start =>
      refine ⟨hs.created, hs.sleeping, ?_⟩
      rw [cancel_refresh, if_neg nofun]
      exact hs.refresh
  | stop | cancelStop =>
    have hc := stopping_cancel m
    exact ⟨hc.created, hc.sleeping, hc.refresh⟩
  | thread | stopNone | cancelStopEnded | stopped | stopRaised =>
    exact ⟨hs.created, hs.sleeping, hs.refresh⟩

/-- The sampling task ends in a cancellation only: of an outcome that it does not tolerate it
learns after its cancellation. -/
theorem task_own (h : Health.Step m x m')
    (hcol : ∀ c e, x = .ended c (.raised e) none → m.refresh c ≠ .collecting false)
    (ho : ∀ k o, m.publications k = some (.done o) →
      Tolerated o ∨ ((∃ y, o = .error (.exception y)) ∧ Stopping m ∧ m.refresh .start = .idle))
    (ht : ∀ e, m.sampling = .ended e → e = .cancelled) {e : Ending ε}
    (he : m'.sampling = .ended e) : e = .cancelled := by
  have cancelled {c : Caller} (he : (m.cancel c).sampling = .ended e) : e = .cancelled :=
    ht e ((cancel_sampling_iff m c (.inr (.inr ⟨e, rfl⟩))).mp he)
  cases h with
  | first | timer => exact absurd he nofun
  | endTask => exact (Sampling.ended.inj he).symm
  | collectFail c e' h => exact absurd h (hcol c e' rfl)
  | collectCancel c h =>
    rcases refreshed_ended he with he | ⟨rfl, -⟩
    · exact ht e he
    · rfl
  | leave c k w op o caught h hop hw =>
    obtain ⟨rfl, rfl⟩ := leaves_iff.mp hw
    rcases refreshed_ended he with he | ⟨rfl, hret, hos⟩
    · exact ht e he
    · rcases ho k o hop with hto | ⟨⟨y, rfl⟩, hstop, hidle⟩
      · rcases ending_of_tolerated hto w.arrived with h | h | ⟨y, h⟩
        · exact absurd h hret
        · exact h
        · exact absurd h (hos y)
      · cases c with
        | sampling =>
          have harrived := hstop.refresh (by rw [h]; exact nofun)
          rw [h] at harrived
          have hcaught : w.arrived = true := harrived
          rw [hcaught]
          rfl
        | start => exact absurd (hidle.symm.trans h) nofun
  | cancel | stop | cancelStop => exact cancelled he
  | start | submit | again | thread | stopNone | cancelStopEnded | stopped | stopRaised =>
    exact ht e he

/-- `stop` raises what the sampling task has raised. -/
theorem stop_own (h : Health.Step m x m') (ht : ∀ e, m.sampling = .ended e → e = .cancelled)
    (hs : ∀ n e, m.stops n ≠ .raised e) (n : Nat) (e : Raised ε) : m'.stops n ≠ .raised e := by
  have set {m : Health.State ε} {j : Nat} {y : Stop ε} (hs : ∀ n e, m.stops n ≠ .raised e)
      (hy : ∀ e, y ≠ .raised e) : (m.setStop j y).stops n ≠ .raised e := by
    unfold State.setStop
    show Function.update m.stops j y n ≠ .raised e
    rw [Function.update_apply]
    split
    · exact hy e
    · exact hs n e
  cases h with
  | stopRaised j e' h hend => exact absurd (ht _ hend) nofun
  | stopNone | cancelStopEnded => exact set hs nofun
  | stopped => exact set (m := { m with task := false }) hs nofun
  | stop => exact set (m := m.cancel .sampling) (by rw [cancel_stops]; exact hs) nofun
  | collectFail | collectCancel | leave =>
    rw [refreshed_stops]
    exact hs n e
  | cancel | cancelStop =>
    rw [cancel_stops]
    exact hs n e
  | _ => exact hs n e

end Sampler

/-! ## Runs -/

/-- Where the callbacks, the sampling task and `stop` are. `clean` says that every step is. -/
structure Inv (attributeError : ε) (clean : Prop) (s : State ε) : Prop where
  turn : Turn s.sampler
  start : s.lifespan ≠ .running → Over s.sampler
  unstopped : s.lifespan ≠ .stopping → Unstopped s.sampler
  stopping : s.lifespan = .stopping → Stopping s.sampler
  use : clean ∨ s.lifespan = .running → ∀ k, s.pc k = .use → s.manager = true
  /-- A callback fails on a cleared manager only. -/
  returned : ∀ k o, s.sampler.publications k = some (.returned o) → Tolerated o ∨
    o = .error (.exception attributeError) ∧ ¬ clean ∧ s.lifespan ≠ .running
  /-- The event loop learns of it when it has cancelled the sampling task. -/
  done : ∀ k o, s.sampler.publications k = some (.done o) → Tolerated o ∨
    o = .error (.exception attributeError) ∧ ¬ clean ∧ s.lifespan = .stopping
  task : ∀ e, s.sampler.sampling = .ended e → e = .cancelled
  stop : ∀ n e, s.sampler.stops n ≠ .raised e

variable {clean : Prop}

/-- What the sampling task may learn. -/
theorem Inv.learns (hi : Inv attributeError clean s) {k : Nat} {o : Outcome ε Unit}
    (ho : s.sampler.publications k = some (.done o)) :
    Tolerated o ∨ ((∃ y, o = .error (.exception y)) ∧ Stopping s.sampler ∧
      s.sampler.refresh .start = .idle) := by
  refine (hi.done k o ho).imp_right fun ⟨he, _, hl⟩ => ⟨⟨_, he⟩, hi.stopping hl, ?_⟩
  exact (hi.start (by rw [hl]; exact nofun)).idle hi.turn

/-- A publication goes on. -/
theorem Inv.next {k : Nat} {op : Operation ε Unit} {pc : PC} (hi : Inv attributeError clean s)
    (hpc : pc = .use → s.pc k = .use)
    (hret : ∀ o, op = .returned o → Tolerated o ∨
      o = .error (.exception attributeError) ∧ ¬ clean ∧ s.lifespan ≠ .running)
    (hdone : ∀ o, op = .done o → Tolerated o ∨
      o = .error (.exception attributeError) ∧ ¬ clean ∧ s.lifespan = .stopping) :
    Inv attributeError clean (s.next k op pc) := by
  have hpub {j : Nat} {op' : Operation ε Unit}
      (h : (s.next k op pc).sampler.publications j = some op') :
      op = op' ∨ s.sampler.publications j = some op' := by
    unfold State.next at h
    simp only [Function.update_apply] at h
    split at h
    · exact .inl (Option.some.inj h)
    · exact .inr h
  have huse {j : Nat} (h : (s.next k op pc).pc j = .use) : s.pc j = .use := by
    unfold State.next at h
    simp only [Function.update_apply] at h
    split at h
    · rename_i hj
      exact hj ▸ hpc h
    · exact h
  exact
    { turn := ⟨hi.turn.starting, hi.turn.sampling, hi.turn.born⟩
      start := hi.start
      unstopped := fun hl => ⟨(hi.unstopped hl).stops, (hi.unstopped hl).task⟩
      stopping := fun hl => ⟨(hi.stopping hl).created, (hi.stopping hl).sleeping,
        (hi.stopping hl).refresh⟩
      use := fun hl j hj => hi.use hl j (huse hj)
      returned := fun j o ho => (hpub ho).elim (hret o) (hi.returned j o)
      done := fun j o ho => (hpub ho).elim (hdone o) (hi.done j o)
      task := hi.task
      stop := hi.stop }

/-- The callback of a publication goes on. -/
theorem Inv.callback {k : Nat} {pc : PC} (hi : Inv attributeError clean s)
    (hpc : pc = .use → s.manager = true) :
    Inv attributeError clean { s with pc := Function.update s.pc k pc } where
  turn := hi.turn
  start := hi.start
  unstopped := hi.unstopped
  stopping := hi.stopping
  use hl j hj := by
    have hj : Function.update s.pc k pc j = .use := hj
    rw [Function.update_apply] at hj
    split at hj
    · exact hpc hj
    · exact hi.use hl j hj
  returned := hi.returned
  done := hi.done
  task := hi.task
  stop := hi.stop

/-- The call of `stop` by the exit stack cancels the sampling task, if there is one. -/
theorem stopping_of_exit {m m' : Health.State ε} {x : Health.Label ε} (hu : Unstopped m)
    (ht : Turn m) (hcall : x = .stop 0 ∨ x = .stopped 0) (h : Health.Step m x m') :
    Stopping m' := by
  rcases hcall with rfl | rfl
  · cases h with
    | stop =>
      have hc := stopping_cancel m
      exact ⟨hc.created, hc.sleeping, hc.refresh⟩
  · cases h with
    | stopNone _ _ htask =>
      have hnone := hu.task htask
      refine ⟨by rw [setStop_sampling, hnone]; exact nofun,
        by rw [setStop_sampling, hnone]; exact nofun, fun hne => ?_⟩
      exact absurd (hnone.symm.trans (ht.sampling hne)) nofun
    | stopped _ q _ hw => exact absurd ((hu.stops 0).symm.trans hw) nofun

theorem inv_step (hi : Inv attributeError clean s) (h : Step attributeError s l s')
    (hc : clean → Clean s l) : Inv attributeError clean s' := by
  cases h with
  | sampler x m hl h =>
    have old {k : Nat} {op : Operation ε Unit} (hop : m.publications k = some op)
        (hq : op ≠ .queued) : s.sampler.publications k = some op :=
      (publications_own h.step h.callback hop).resolve_right hq
    exact
      { turn := hi.turn.step h.step
        start := fun hr => (hi.start hr).step hi.turn h.step
        unstopped := fun hs => (hi.unstopped hs).step hi.turn h
        stopping := fun hs =>
          (hi.stopping hs).step hi.turn (hi.start (by rw [hs]; exact nofun)) h.step
        use := hi.use
        returned := fun k o ho => hi.returned k o (old ho nofun)
        done := fun k o ho => hi.done k o (old ho nofun)
        task := fun e he => task_own h.step h.collecting (fun _ _ => hi.learns) hi.task he
        stop := stop_own h.step hi.task hi.stop }
  | exit x m hl hcall hidle h =>
    have hx : ∀ k, x ≠ .thread k := by
      rcases hcall with rfl | rfl <;> exact nofun
    have hcol : ∀ c e, x = .ended c (.raised e) none → s.sampler.refresh c ≠ .collecting false := by
      rcases hcall with rfl | rfl <;> exact nofun
    have old {k : Nat} {op : Operation ε Unit} (hop : m.publications k = some op)
        (hq : op ≠ .queued) : s.sampler.publications k = some op :=
      (publications_own h hx hop).resolve_right hq
    have hover : Over s.sampler := hi.start (by rw [hl]; exact nofun)
    have hunstopped : Unstopped s.sampler := hi.unstopped (by rw [hl]; exact nofun)
    exact
      { turn := hi.turn.step h
        start := fun _ => hover.step hi.turn h
        unstopped := fun hs => absurd rfl hs
        stopping := fun _ => stopping_of_exit hunstopped hi.turn hcall h
        use := fun hu => hi.use (hu.imp_right nofun)
        returned := fun k o ho =>
          (hi.returned k o (old ho nofun)).imp_right fun ⟨he, hn, _⟩ => ⟨he, hn, nofun⟩
        done := fun k o ho =>
          (hi.done k o (old ho nofun)).imp_right fun ⟨he, hn, _⟩ => ⟨he, hn, rfl⟩
        task := fun e he => task_own h hcol (fun _ _ => hi.learns) hi.task he
        stop := stop_own h hi.task hi.stop }
  | begin k h => exact hi.next nofun nofun nofun
  | check k h hpc =>
    refine hi.callback fun huse => ?_
    by_contra hm
    rw [if_neg hm] at huse
    exact absurd huse nofun
  | use k h hpc hm => exact hi.callback nofun
  | useNone k h hpc hm =>
    have hcleared (hu : clean ∨ s.lifespan = .running) : False :=
      absurd ((hi.use hu k hpc).symm.trans hm) nofun
    refine hi.next nofun (fun o ho => .inr ⟨?_, fun h => hcleared (.inl h),
      fun h => hcleared (.inr h)⟩) nofun
    exact (Operation.returned.inj ho).symm
  | rest k o h hpc ho =>
    exact hi.next nofun (fun o' ho' => .inl (Operation.returned.inj ho' ▸ ho)) nofun
  | complete k o hl h =>
    refine hi.next id nofun fun o' ho' => ?_
    obtain rfl := Operation.done.inj ho'
    refine (hi.returned k o h).imp_right fun ⟨he, hn, hr⟩ => ⟨he, hn, ?_⟩
    cases hlife : s.lifespan with
    | running => exact absurd hlife hr
    | torn => exact absurd hlife hl
    | stopping => rfl
  | create hl hs =>
    exact { hi with
      turn := hi.turn
      use := fun _ _ _ => rfl }
  | clear hl hs =>
    exact
      { turn := hi.turn
        start := fun _ => hs
        unstopped := fun _ => hi.unstopped (by rw [hl]; exact nofun)
        stopping := nofun
        use := fun hu k hk => absurd hk (hc (hu.resolve_right nofun) rfl k)
        returned := fun k o ho =>
          (hi.returned k o ho).imp_right fun ⟨he, hn, _⟩ => ⟨he, hn, nofun⟩
        done := fun k o ho => .inl <| (hi.done k o ho).resolve_right fun ⟨_, _, hs⟩ =>
          absurd (hl.symm.trans hs) nofun
        task := hi.task
        stop := hi.stop }

/-- What the lifespan expects of the sampler while it ends. -/
structure Quiet (attributeError : ε) (s : State ε) : Prop where
  task : s.sampler.sampling ≠ .ended (.raised (.exception attributeError))
  stop : ∀ n e, s.sampler.stops n ≠ .raised e

/-- What it expects of the publications too. -/
structure Safe (attributeError : ε) (s : State ε) : Prop extends Quiet attributeError s where
  /-- No callback has failed on a cleared manager. -/
  callback : ∀ k o, s.sampler.publications k = some (.returned o) ∨
    s.sampler.publications k = some (.done o) → o ≠ .error (.exception attributeError)

theorem Init.inv (h0 : Init s) : Inv attributeError clean s where
  turn := h0.sampler.inv.turn
  start hl := absurd h0.lifespan hl
  unstopped _ := ⟨h0.sampler.stops, fun _ => h0.sampler.sampling⟩
  stopping hl := absurd (h0.lifespan.symm.trans hl) nofun
  use _ k hk := absurd ((h0.pc k).symm.trans hk) nofun
  returned k _ ho := absurd ((h0.sampler.publications k).symm.trans ho) nofun
  done k _ ho := absurd ((h0.sampler.publications k).symm.trans ho) nofun
  task _ he := absurd (h0.sampler.sampling.symm.trans he) nofun
  stop n _ he := absurd ((h0.sampler.stops n).symm.trans he) nofun

/-- **In a run whose steps are clean, publishing is safe against teardown.** In every run the
sampling task and `stop` are. -/
theorem safe_of_clean (attributeError : ε) (r : Run (Step attributeError))
    (h0 : Init (r.state 0)) :
    (∀ i, i ≤ r.length → Quiet attributeError (r.state i)) ∧
      ((∀ i, i < r.length → Clean (r.state i) (r.label i)) →
        ∀ i, i ≤ r.length → Safe attributeError (r.state i)) := by
  have hinv (i : Nat) (hi : i ≤ r.length) :
      Inv attributeError (∀ i, i < r.length → Clean (r.state i) (r.label i)) (r.state i) := by
    induction i with
    | zero => exact h0.inv
    | succ i ih => exact inv_step (ih (Nat.le_of_succ_le hi)) (r.step_ok i hi) fun hc => hc i hi
  have quiet (i : Nat) (hi : i ≤ r.length) : Quiet attributeError (r.state i) :=
    ⟨fun he => absurd ((hinv i hi).task _ he) nofun, (hinv i hi).stop⟩
  refine ⟨quiet, fun hc i hi => ⟨quiet i hi, fun k o ho he => ?_⟩⟩
  have htolerated : Tolerated o := by
    rcases ho with ho | ho
    · exact ((hinv i hi).returned k o ho).resolve_right fun h => h.2.1 hc
    · exact ((hinv i hi).done k o ho).resolve_right fun h => h.2.1 hc
  rcases htolerated with rfl | ⟨e, rfl⟩
  · exact absurd he nofun
  · exact absurd he nofun

/-! ## One unclean step -/

/-- A step of the sampler that ends no call of `refresh` by an exception. -/
theorem Own.quiet {m m' : Health.State ε} {x : Health.Label ε} (h : Health.Step m x m')
    (hx : ∀ k, x ≠ .thread k) (he : ∀ c e, x ≠ .ended c (.raised e) none)
    (hs : ∀ n, m.stops n = .idle → m'.stops n = .idle) : Own m x m' :=
  ⟨h, hx, fun c e h => absurd h (he c e), hs⟩

/-- The end of a waiting `stop`. -/
theorem Own.joined {m m' : Health.State ε} {x : Health.Label ε} {n : Nat} {q : Bool} {y : Stop ε}
    (h : Health.Step m x m') (hx : ∀ k, x ≠ .thread k)
    (he : ∀ c e, x ≠ .ended c (.raised e) none) (hw : m.stops n = .waiting q)
    (hs : m'.stops = Function.update m.stops n y) : Own m x m' := by
  refine ⟨h, hx, fun c e h => absurd h (he c e), fun j hj => ?_⟩
  by_cases hn : j = n
  · subst hn
    exact absurd (hw.symm.trans hj) nofun
  · rw [hs, Function.update_of_ne hn]
    exact hj

/-- The service is up: one publication is done and the manager exists. -/
def serving : Run (Step ()) :=
  let r := Run.start (Step ())
    { sampler :=
        { start := .new, sampling := .none, refresh := fun _ => .idle, task := false
          publications := fun _ => none, submitted := 0, stops := fun _ => .idle }
      manager := false, pc := fun _ => .check, lifespan := .running } .create
  let r := r.snoc (.sampler _ _ _ nofun (.quiet (.start _ rfl) nofun nofun (fun _ h => h)))
  let r := r.snoc (.sampler _ _ _ nofun (.quiet (.submit _ .start rfl) nofun nofun (fun _ h => h)))
  let r := r.snoc (.begin _ 0 rfl)
  let r := r.snoc (.check _ 0 rfl rfl)
  let r := r.snoc (.rest _ 0 (.ok ()) rfl rfl (.inl rfl))
  let r := r.snoc (.complete _ 0 (.ok ()) nofun rfl)
  let r := r.snoc (.sampler _ _ _ nofun (.quiet
    (.leave _ .start 0 ⟨false, false⟩ _ (.ok ()) false rfl rfl (.woken _ _ rfl)) nofun nofun
    (fun _ h => h)))
  r.snoc (.create _ rfl rfl)

/-- The lifespan ends without a publication under way. -/
def served : Run (Step ()) :=
  let r := serving
  let r := r.snoc (.sampler _ _ _ nofun (.quiet (.first _ rfl) nofun nofun (fun _ h => h)))
  let r := r.snoc (.clear _ rfl (.inl rfl))
  let r := r.snoc (.exit _ _ _ rfl (.inl rfl) rfl (.stop _ 0 rfl rfl))
  let r := r.snoc (.sampler _ _ _ nofun (.quiet (.endTask _ (.inr rfl)) nofun nofun (fun _ h => h)))
  r.snoc (.sampler _ _ _ nofun (.joined
    (.stopped _ 0 false .cancelled rfl rfl (.inr (.inl rfl))) nofun nofun rfl rfl))

theorem safe_of_clean_served :
    (served.state 13).sampler.stops 0 = .returned ∧ Safe () (served.state 13) := by
  refine ⟨rfl, (safe_of_clean () served ?_).2 ?_ 13 (by decide)⟩
  · exact ⟨⟨rfl, rfl, fun _ => rfl, rfl, fun _ => rfl, fun _ => rfl⟩, rfl, fun _ => rfl, rfl⟩
  · have hl : served.length = 13 := rfl
    intro i hi hclear k hk
    rw [hl] at hi
    obtain rfl : i = 9 := by
      interval_cases i <;> first | rfl | exact absurd hclear nofun
    have hpc : (served.state 9).pc = Function.update (Function.update (Function.update
        (Function.update (fun _ => PC.check) 0 .check) 0 .rest) 0 .rest) 0 .rest := rfl
    rw [hpc] at hk
    simp only [Function.update_apply] at hk
    split at hk <;> exact absurd hk nofun

/-- The manager is cleared between the test of a callback and its use. The callback fails, the
sampling task is cancelled while it waits for it and logs the error, and `stop` returns. -/
def clearedInBetween : Run (Step ()) :=
  let r := serving
  let r := r.snoc (.sampler _ _ _ nofun (.quiet (.first _ rfl) nofun nofun (fun _ h => h)))
  let r := r.snoc (.sampler _ _ _ nofun (.quiet (.timer _ rfl) nofun nofun (fun _ h => h)))
  let r := r.snoc (.sampler _ _ _ nofun
    (.quiet (.submit _ .sampling rfl) nofun nofun (fun _ h => h)))
  let r := r.snoc (.begin _ 1 rfl)
  let r := r.snoc (.check _ 1 rfl rfl)
  let r := r.snoc (.clear _ rfl (.inl rfl))
  let r := r.snoc (.useNone _ 1 rfl rfl rfl)
  let r := r.snoc (.exit _ _ _ rfl (.inl rfl) rfl (.stop _ 0 rfl rfl))
  let r := r.snoc (.complete _ 1 (.error (.exception ())) nofun rfl)
  let r := r.snoc (.sampler _ _ _ nofun (.quiet (.leave _ .sampling 1 ⟨true, false⟩ _
    (.error (.exception ())) true rfl rfl (.cancelled _ _ rfl)) nofun nofun (fun _ h => h)))
  r.snoc (.sampler _ _ _ nofun (.joined
    (.stopped _ 0 false .cancelled rfl rfl (.inr (.inl rfl))) nofun nofun rfl rfl))

/-- The callback fails because the manager was cleared between its check and its use. -/
theorem cleared_unsafe :
    ¬ ∀ r : Run (Step ()), Init (r.state 0) → ∀ i, i < r.length →
      (∀ k, r.label i ≠ .fails k) ∧
        (r.state i).sampler.sampling ≠ .ended (.raised (.exception ())) ∧
        ∀ e, (r.state i).sampler.stops 0 ≠ .raised e := by
  intro h
  have h0 : Init (clearedInBetween.state 0) :=
    ⟨⟨rfl, rfl, fun _ => rfl, rfl, fun _ => rfl, fun _ => rfl⟩, rfl, fun _ => rfl, rfl⟩
  exact (h clearedInBetween h0 14 (by decide)).1 1 rfl

end LclFastapi.Health.Teardown
