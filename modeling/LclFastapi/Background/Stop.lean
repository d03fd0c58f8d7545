import LclFastapi.Background.Thread

/-!
# What a stop request of a worker thread does

For every interleaving of any number of `stop` calls with the thread of `Thread.lean`.

* **`stop_never_lost`**: once a `stop` has returned, a registered entry task has its cancellation
  scheduled; no cancellation is scheduled on a closed loop; at most one executable is called after
  `stop_event` was set.
* **`cancelled_once`**: a task is cancelled at most once in a run where every `stop` that finds a
  registered task is the first to schedule its cancellation (`Unscheduled`).
* `cancelled_twice`: the two `stop` rounds of a failed publication and of the retirement schedule
  one cancellation each, and the second arrives while the entry handles the first.

The invariant of the first is `Inv`; the second rests on `schedulings_step`, which counts the
cancellations a step schedules.
-/

namespace LclFastapi.Background.Thread

open LclFastapi.Lib

variable {auto_restart : Bool} {s t : State} {a : Label} {n : Nat}

/-! ## Scheduled cancellations -/

/-- A cancellation of the task of attempt `n` has been scheduled on the loop. -/
def State.Scheduled (s : State) (n : Nat) : Prop :=
  n ∈ s.callbacks ∨ n ∈ s.cancelled

instance : Decidable (s.Scheduled n) := inferInstanceAs (Decidable (_ ∨ _))

/-- How many cancellations of the task of attempt `n` have been scheduled. -/
def State.schedulings (s : State) (n : Nat) : Nat :=
  s.callbacks.count n + s.cancelled.count n

/-- The task whose cancellation a step schedules. -/
def Label.schedules : Label → Option Nat
  | .register n true => some n
  | .stopped _ scheduled => scheduled
  | _ => none

theorem State.scheduled_iff : s.Scheduled n ↔ 0 < s.schedulings n := by
  rw [State.Scheduled, State.schedulings, ← List.count_pos_iff, ← List.count_pos_iff]
  omega

theorem State.cancelled_le_schedulings : s.cancelled.count n ≤ s.schedulings n :=
  Nat.le_add_left _ _

/-- **What a step schedules.** -/
theorem schedulings_step (h : Step auto_restart s a t) (n : Nat) :
    t.schedulings n = s.schedulings n + if a.schedules = some n then 1 else 0 := by
  cases h with
  | register m hpc =>
    cases hstop : s.stop_event with
    | false => simp [State.schedulings, Label.schedules]
    | true =>
      by_cases hm : m = n
      · simp [State.schedulings, Label.schedules, hm]
        omega
      · simp [State.schedulings, Label.schedules, hm]
  | cancel m rest hon hq =>
    by_cases hm : m = n
    · simp [State.schedulings, Label.schedules, hq, hm]
      omega
    · simp [State.schedulings, Label.schedules, hq, hm]
  | stopTask c m hc hloop htask =>
    by_cases hm : m = n
    · simp [State.schedulings, Label.schedules, hm]
      omega
    · simp [State.schedulings, Label.schedules, hm]
  | _ => rfl

theorem State.Scheduled.step (hs : s.Scheduled n) (h : Step auto_restart s a t) :
    t.Scheduled n := by
  rw [State.scheduled_iff] at hs ⊢
  have := schedulings_step h n
  omega

/-! ## The invariant of a stop -/

/-- The points of `run` between the store of the loop under the lock and the `finally` that
drops it. -/
def PC.looping : PC → Bool
  | .readying | .head _ | .running _ | .setup _ | .invoking _ | .executing _ | .registering _
  | .awaiting _ | .clearing .. | .settling .. | .closing .. | .exiting .. | .delaying ..
  | .restarting .. => true
  | _ => false

/-- The points after the Runner has closed its loop. -/
def PC.afterRunner : PC → Bool
  | .handling | .finishing | .finished => true
  | _ => false

/-- The attempt whose task is registered. -/
def PC.registered : PC → Option Nat
  | .awaiting n | .clearing n _ => some n
  | _ => none

theorem PC.looping_of_registered {pc : PC} (h : pc.registered = some n) : pc.looping = true := by
  cases pc <;> first | rfl | simp [PC.registered] at h

theorem PC.not_afterRunner_of_registered {pc : PC} (h : pc.registered = some n) :
    pc.afterRunner = false := by
  cases pc <;> first | rfl | simp [PC.registered] at h

structure Inv (s : State) : Prop where
  /-- The task slot follows `await_entry`. -/
  task : s.task = s.pc.registered
  loop : s.pc.looping = true → s.loop = true
  closed : s.closed = true → s.pc.afterRunner = true
  event : ∀ c, s.callers c ≠ .idle → s.stop_event = true
  told : ∀ c n, s.callers c = .returned → s.task = some n → s.Scheduled n

theorem Inv.init (h : Init s) : Inv s where
  task := h.task.trans (by rw [h.pc]; rfl)
  loop hl := by simp [h.pc, PC.looping] at hl
  closed hc := by simp [h.closed] at hc
  event c hc := absurd (h.callers c) hc
  told c n hc := by simp [h.callers c] at hc

/-- A registered task belongs to an open loop that `stop` can see. -/
theorem Inv.registered (h : Inv s) (hn : s.task = some n) : s.loop = true ∧ s.closed = false := by
  rw [h.task] at hn
  refine ⟨h.loop (PC.looping_of_registered hn), ?_⟩
  by_contra hc
  have hafter := h.closed (by simpa using hc)
  rw [PC.not_afterRunner_of_registered hn] at hafter
  cases hafter

/-- Only the two locked sections of `await_entry` change the task slot. -/
theorem Inv.task_step (h : Inv s) (hst : Step auto_restart s a t) : t.task = t.pc.registered := by
  have htask := h.task
  cases hst with
  | register m hpc | clear m outcome hpc => rfl
  | cancel | stop | stopTask | stopIdle => exact htask
  | fail hpc =>
    rcases hpc with hpc | ⟨m, hpc⟩ | ⟨m, level, raised, hpc⟩ <;>
      exact htask.trans (by rw [hpc]; rfl)
  | escape m level hpc =>
    rcases hpc with hpc | ⟨type, hpc⟩ <;> exact htask.trans (by rw [hpc]; rfl)
  | closeRunner raised again hpc =>
    rw [hpc] at htask
    cases raised <;> cases again <;> exact htask
  | _ =>
    all_goals
      rw [‹s.pc = _›] at htask
      exact htask

theorem Inv.loop_step (h : Inv s) (hst : Step auto_restart s a t) :
    t.pc.looping = true → t.loop = true := by
  intro hl
  cases hst with
  | publish hpc => rfl
  | cancel | stop | stopTask | stopIdle => exact h.loop hl
  | closeRunner raised again hpc => cases raised <;> cases again <;> simp [PC.looping] at hl
  | fail hpc | start hpc | enter hpc | enterFail hpc | initialized hpc | leave m hpc
  | exitRaise m level hpc | finish m level hpc | aclose raised hpc | acloseFail raised hpc
  | drop raised hpc | handleReady hpc | handle type hpc | done hpc =>
    simp [PC.looping, State.transition] at hl
  | escape m level hpc => exact h.loop (by rcases hpc with hpc | ⟨type, hpc⟩ <;> rw [hpc] <;> rfl)
  | _ =>
    all_goals
      refine h.loop ?_
      rw [‹s.pc = _›]
      rfl

theorem Inv.closed_step (h : Inv s) (hst : Step auto_restart s a t) :
    t.closed = true → t.pc.afterRunner = true := by
  intro hc
  cases hst with
  | closeRunner raised again hpc => cases raised <;> cases again <;> rfl
  | cancel | stop | stopTask | stopIdle => exact h.closed hc
  | enterFail hpc | handleReady hpc | handle type hpc | done hpc => rfl
  | fail hpc =>
    have := h.closed hc
    rcases hpc with hpc | ⟨m, hpc⟩ | ⟨m, level, raised, hpc⟩ <;> simp [hpc, PC.afterRunner] at this
  | escape m level hpc =>
    have := h.closed hc
    rcases hpc with hpc | ⟨type, hpc⟩ <;> simp [hpc, PC.afterRunner] at this
  | _ =>
    all_goals
      have := h.closed hc
      rw [‹s.pc = _›] at this
      simp [PC.afterRunner] at this

theorem Inv.event_step (h : Inv s) (hst : Step auto_restart s a t) :
    ∀ c, t.callers c ≠ .idle → t.stop_event = true := by
  intro c hc
  cases hst with
  | stop c' hc' => rfl
  | stopTask c' m hc' hloop htask => exact h.event c' (by simp [hc'])
  | stopIdle c' hc' hnone => exact h.event c' (by simp [hc'])
  | _ => all_goals exact h.event c hc

/-- The lock decides: the registration sees the event, or `stop` sees the registered task. -/
theorem Inv.told_step (h : Inv s) (hst : Step auto_restart s a t) :
    ∀ c n, t.callers c = .returned → t.task = some n → t.Scheduled n := by
  intro c n hc hn
  have hstep := hst
  cases hst with
  | register m hpc =>
    obtain rfl : m = n := by simpa using hn
    have hstop : s.stop_event = true := h.event c (by simp at hc; simp [hc])
    exact .inl (by simp [hstop])
  | clear m outcome hpc => simp at hn
  | stop c' hc' =>
    have hne : c ≠ c' := by
      rintro rfl
      simp at hc
    exact h.told c n (by simpa [hne] using hc) hn
  | stopTask c' m hc' hloop htask =>
    obtain rfl : m = n := by simpa [htask] using hn
    exact .inl (by simp)
  | stopIdle c' hc' hnone =>
    rcases hnone with hloop | htask
    · rw [(h.registered hn).1] at hloop
      cases hloop
    · simp [htask] at hn
  | cancel m rest hon hq => exact (h.told c n hc hn).step hstep
  | _ => all_goals exact h.told c n hc hn

theorem Inv.step (h : Inv s) (hst : Step auto_restart s a t) : Inv t :=
  ⟨h.task_step hst, h.loop_step hst, h.closed_step hst, h.event_step hst, h.told_step hst⟩

/-! ## Executables called after a stop -/

/-- The points between the test of `stop_event` and the call of the executable. -/
def PC.tested : PC → Bool
  | .running _ | .setup _ | .invoking _ => true
  | _ => false

/-- No further executable will be called. -/
structure Halted (s : State) : Prop where
  event : s.stop_event = true
  tested : s.pc.tested = false

theorem stop_event_step (h : Step auto_restart s a t) (hs : s.stop_event = true) :
    t.stop_event = true := by
  cases h <;> first | rfl | exact hs

theorem Halted.step (h : Halted s) (hst : Step auto_restart s a t) : Halted t := by
  refine ⟨stop_event_step hst h.event, ?_⟩
  have htested := h.tested
  cases hst with
  | next m hpc hstop => simp [h.event] at hstop
  | closeRunner raised again hpc => cases raised <;> cases again <;> rfl
  | cancel | stop | stopTask | stopIdle => exact htested
  | running m hpc | setup m hpc => simp [hpc, PC.tested] at htested
  | _ => all_goals rfl

/-- A call made after a stop is the last one. -/
theorem halted_of_invoke (h : Step auto_restart s (.invoke n) t) (hs : s.stop_event = true) :
    Halted t := by
  cases h with
  | invoke m hpc => exact ⟨hs, rfl⟩

theorem Halted.not_invoke (h : Halted s) : ¬ Step auto_restart s (.invoke n) t := by
  intro hst
  cases hst with
  | invoke m hpc =>
    have := h.tested
    simp [hpc, PC.tested] at this

/-! ## No stop request is lost -/

/-- What the callers of `stop` rely on, along one run. -/
structure StopNeverLost (r : Run (Step auto_restart)) : Prop where
  /-- After a return, a registered task has its cancellation scheduled. -/
  scheduled : ∀ i, i ≤ r.length → ∀ c n, (r.state i).callers c = .returned →
    (r.state i).task = some n → (r.state i).Scheduled n
  /-- A step schedules the cancellation of the registered task, on an open loop. -/
  opened : ∀ i, i < r.length → ∀ n, (r.label i).schedules = some n →
    (r.state i).closed = false ∧ (r.state (i + 1)).task = some n
  /-- At most one executable is called once the event is set. -/
  last : ∀ i j k m n, i ≤ j → j < k → k < r.length → (r.state i).stop_event = true →
    r.label j = .invoke m → r.label k ≠ .invoke n

theorem Inv.opened (h : Inv s) (hst : Step auto_restart s a t) (hn : a.schedules = some n) :
    s.closed = false ∧ t.task = some n := by
  cases hst with
  | register m hpc =>
    have hopen : s.closed = false := by
      by_contra hc
      have hafter := h.closed (by simpa using hc)
      simp [hpc, PC.afterRunner] at hafter
    cases hstop : s.stop_event with
    | false => simp [hstop, Label.schedules] at hn
    | true =>
      simp only [hstop, Label.schedules, Option.some.injEq] at hn
      exact ⟨hopen, congrArg some hn⟩
  | stopTask c m hc hloop htask =>
    simp only [Label.schedules, Option.some.injEq] at hn
    exact ⟨(h.registered htask).2, hn ▸ htask⟩
  | _ => all_goals simp [Label.schedules] at hn

/-- **A stop request is never lost.** -/
theorem stop_never_lost (r : Run (Step auto_restart)) (h0 : Init (r.state 0)) :
    StopNeverLost r := by
  have hinv := r.invariant (Inv.init h0) fun _ _ _ hst h => h.step hst
  refine ⟨fun i hi => (hinv i hi).told, fun i hi n hn => (hinv i hi.le).opened (r.step_ok i hi) hn,
    ?_⟩
  intro i j k m n hij hjk hk hstop hj hkn
  have hjlt : j < r.length := Nat.lt_trans hjk hk
  have hevent : (r.state j).stop_event = true :=
    r.stays (P := fun s => s.stop_event = true) (fun _ _ _ hst => stop_event_step hst) hij hjlt.le
      hstop
  have hhalt : Halted (r.state (j + 1)) := halted_of_invoke (hj ▸ r.step_ok j hjlt) hevent
  have hhaltk : Halted (r.state k) :=
    r.stays (fun _ _ _ hst h => h.step hst) hjk hk.le hhalt
  exact hhaltk.not_invoke (hkn ▸ r.step_ok k hk)

/-! ## One cancellation for each task -/

/-- The task of attempt `n` is still to be registered. -/
def PC.Ahead (pc : PC) (n : Nat) : Prop :=
  match pc with
  | .new | .entering | .initializing | .publishing | .readying => True
  | .running m | .setup m | .invoking m | .executing m | .registering m => m ≤ n
  | .head m | .awaiting m | .clearing m _ | .settling m _ | .closing m _ _ | .exiting m _ _
  | .delaying m _ | .restarting m _ => m < n
  | _ => False

/-- The thread never goes back to an earlier attempt. -/
theorem ahead_step (h : Step auto_restart s a t) (hn : t.pc.Ahead n) : s.pc.Ahead n := by
  cases h with
  | cancel | stop | stopTask | stopIdle => exact hn
  | closeRunner raised again hpc => cases raised <;> cases again <;> exact hn.elim
  | register m hpc =>
    rw [hpc]
    exact Nat.le_of_lt hn
  | execute m outcome hpc | awaitable m hpc =>
    rw [hpc]
    simp only [PC.Ahead] at hn ⊢
    omega
  | ready hpc | publish hpc | start hpc | enter hpc | initialized hpc =>
    rw [hpc]
    trivial
  | escape m level hpc =>
    rcases hpc with hpc | ⟨type, hpc⟩ <;> rw [hpc] <;> exact hn
  | _ => all_goals first | exact hn.elim | (rw [‹s.pc = _›]; exact hn)

/-- A `stop` that finds a registered task is the first to schedule its cancellation. -/
def Unscheduled (s : State) (a : Label) : Prop :=
  ∀ c n, a = .stopped c (some n) → ¬ s.Scheduled n

/-- Each task has at most one cancellation scheduled, and none before it is registered. -/
structure Once (s : State) : Prop where
  inv : Inv s
  ahead : ∀ n, s.pc.Ahead n → s.schedulings n = 0
  once : ∀ n, s.schedulings n ≤ 1

theorem Once.init (h : Init s) : Once s := by
  have hzero : ∀ n, s.schedulings n = 0 := fun n => by
    simp [State.schedulings, h.callbacks, h.cancelled]
  exact ⟨.init h, fun n _ => hzero n, fun n => by rw [hzero n]; exact Nat.zero_le 1⟩

/-- A step schedules the cancellation of a task that has none. -/
theorem Once.fresh (h : Once s) (hst : Step auto_restart s a t) (hc : Unscheduled s a)
    (hn : a.schedules = some n) : s.schedulings n = 0 ∧ ¬ t.pc.Ahead n := by
  cases hst with
  | register m hpc =>
    cases hstop : s.stop_event with
    | false => simp [hstop, Label.schedules] at hn
    | true =>
      obtain rfl : m = n := by simpa [hstop, Label.schedules] using hn
      exact ⟨h.ahead m (by rw [hpc]; exact Nat.le_refl m), Nat.lt_irrefl m⟩
  | stopTask c m hcaller hloop htask =>
    obtain rfl : m = n := by simpa [Label.schedules] using hn
    have hnot := hc c m rfl
    rw [State.scheduled_iff] at hnot
    refine ⟨by omega, fun hahead => ?_⟩
    have hreg := h.inv.task
    rw [htask] at hreg
    change s.pc.Ahead m at hahead
    revert hreg hahead
    cases s.pc <;> simp +contextual [PC.registered, PC.Ahead]
  | _ => all_goals simp [Label.schedules] at hn

theorem Once.step (h : Once s) (hst : Step auto_restart s a t) (hc : Unscheduled s a) :
    Once t := by
  refine ⟨h.inv.step hst, fun n hn => ?_, fun n => ?_⟩
  · rw [schedulings_step hst n, h.ahead n (ahead_step hst hn), if_neg]
    exact fun hs => (h.fresh hst hc hs).2 hn
  · rw [schedulings_step hst n]
    by_cases hs : a.schedules = some n
    · simp [hs, (h.fresh hst hc hs).1]
    · simpa [hs] using h.once n

/-- One cancellation of each task is scheduled exactly when every `stop` that finds a registered
task is the first to schedule its cancellation. -/
theorem scheduled_once_iff (r : Run (Step auto_restart)) (h0 : Init (r.state 0)) :
    (∀ i, i ≤ r.length → ∀ n, (r.state i).schedulings n ≤ 1) ↔
      ∀ i, i < r.length → Unscheduled (r.state i) (r.label i) := by
  constructor
  · intro h i hi c n hl hs
    have hstep := schedulings_step (r.step_ok i hi) n
    have honce := h (i + 1) hi n
    rw [State.scheduled_iff] at hs
    rw [hl, Label.schedules, if_pos rfl] at hstep
    omega
  · intro hc i hi
    exact (r.invariant_of (Once.init h0) hc (fun _ _ _ hst hc h => h.step hst hc) i hi).once

/-- No task is cancelled twice along a run. -/
def CancelledOnce (r : Run (Step auto_restart)) : Prop :=
  ∀ i, i ≤ r.length → ∀ n, (r.state i).cancelled.count n ≤ 1

/-- **A task is cancelled at most once**, in every run whose stops are each the first. -/
theorem cancelled_once (r : Run (Step auto_restart)) (h0 : Init (r.state 0))
    (hc : ∀ i, i < r.length → Unscheduled (r.state i) (r.label i)) : CancelledOnce r := by
  intro i hi n
  exact State.cancelled_le_schedulings.trans ((scheduled_once_iff r h0).mpr hc i hi n)

/-! ## A service with one asynchronous entry -/

def constructed : State where
  stop_event := false
  loop := false
  closed := false
  task := none
  callbacks := []
  cancelled := []
  record := ⟨.starting, 0, 0⟩
  ready := .pending
  done := false
  callers _ := .idle
  pc := .new

theorem constructed_init : Init constructed :=
  ⟨rfl, rfl, rfl, rfl, rfl, rfl, rfl, rfl, rfl, fun _ => rfl, rfl⟩

/-- The entry of the first attempt is called. -/
def invokedOnce : Run (Step true) :=
  let r := Run.start (Step true) constructed .inner
  let r := r.snoc (.start _ rfl)
  let r := r.snoc (.enter _ rfl)
  let r := r.snoc (.initialized _ rfl)
  let r := r.snoc (.publish _ rfl)
  let r := r.snoc (.ready _ rfl rfl)
  let r := r.snoc (.next _ 0 rfl rfl)
  let r := r.snoc (.running _ 1 rfl)
  let r := r.snoc (.setup _ 1 rfl)
  r.snoc (.invoke _ 1 rfl)

/-- The entry of the first attempt is awaited, one `stop` returns and the loop cancels the task. -/
def stoppedOnce : Run (Step true) :=
  let r := invokedOnce.snoc (.awaitable _ 1 rfl)
  let r := r.snoc (.register _ 1 rfl)
  let r := r.snoc (.stop _ 0 rfl)
  let r := r.snoc (.stopTask _ 0 1 rfl rfl rfl)
  r.snoc (.cancel _ 1 [] rfl rfl)

/-- A second `stop` while the entry still handles its cancellation. -/
def stoppedTwice : Run (Step true) :=
  let r := stoppedOnce.snoc (.stop _ 1 rfl)
  let r := r.snoc (.stopTask _ 1 1 rfl rfl rfl)
  r.snoc (.cancel _ 1 [] rfl rfl)

theorem stop_never_lost_stoppedOnce :
    StopNeverLost stoppedOnce ∧ (stoppedOnce.state 14).callers 0 = .returned ∧
      (stoppedOnce.state 14).task = some 1 ∧ (stoppedOnce.state 14).cancelled = [1] :=
  ⟨stop_never_lost stoppedOnce constructed_init, rfl, rfl, rfl⟩

theorem cancelled_once_stoppedOnce :
    CancelledOnce stoppedOnce ∧ (stoppedOnce.state 14).cancelled = [1] := by
  refine ⟨cancelled_once stoppedOnce constructed_init ?_, rfl⟩
  have hall : ∀ i, i < 14 → ∀ n ∈ (stoppedOnce.label i).schedules,
      ¬ (stoppedOnce.state i).Scheduled n := by decide
  intro i hi c n hl
  exact hall i hi n (by rw [hl]; rfl)

/-- **The entry is cancelled again while it cleans up.** -/
theorem cancelled_twice :
    Init (stoppedTwice.state 0) ∧ (stoppedTwice.state 17).pc = .awaiting 1 ∧
      (stoppedTwice.state 17).cancelled = [1, 1] ∧ ¬ CancelledOnce stoppedTwice :=
  ⟨constructed_init, rfl, rfl, fun h => absurd (h 17 (Nat.le_refl 17) 1) (by decide)⟩

end LclFastapi.Background.Thread
