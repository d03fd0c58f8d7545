import LclFastapi.Background.Retirement

/-!
# The two promises of a worker thread (`background/thread.py`, `background/manager.py`)

What one step of `WorkerThread.run` does to `ready`, to `done`, to what it has open and to what is
left of it, and what `start` and `retire` know of the threads they wait for. `Resolution.lean` draws
the conclusion for whole runs.

* `PC.allows` is the invariant of `ready`, `PC.held` what is open at each program point, `PC.rank`
  the measure of a thread that is told to stop.
* `Waits` is the invariant of the manager: `start` waits only for threads it has started, and
  `retire` for those it has told to stop.
-/

namespace LclFastapi.Background.Thread

open LclFastapi.Lib

variable {auto_restart : Bool} {s t : State} {a : Label} {n : Nat}

/-! ## The promise `ready` -/

/-- What `ready` may be at a program point. -/
def PC.allows : PC → Promise → Bool
  | .new, p | .entering, p | .initializing, p | .publishing, p | .readying, p => p == .pending
  | .tearing true, p | .dropping true, p | .leaving true, p | .handling, p => p != .exception
  | .finishing, p | .finished, p => p != .pending
  | _, p => p == .result

theorem allows_step (hst : Step auto_restart s a t) (h : s.pc.allows s.ready = true) :
    t.pc.allows t.ready = true := by
  cases hst with
  | cancel | stop | stopTask | stopIdle => exact h
  | fail hpc =>
    rcases hpc with hpc | ⟨m, hpc⟩ | ⟨m, level, raised, hpc⟩
    all_goals
      rw [hpc] at h
      have hr := beq_iff_eq.mp h
      rw [PC.allows, hr]
      rfl
  | escape m level hpc => rcases hpc with hpc | ⟨type, hpc⟩ <;> rw [hpc] at h <;> exact h
  | closeRunner raised again hpc =>
    rw [hpc] at h
    cases hr : s.ready <;> rw [hr] at h <;> cases raised <;> cases again <;>
      first | rfl | cases h
  | aclose raised hpc | acloseFail raised hpc | drop raised hpc =>
    rw [hpc] at h
    cases hr : s.ready <;> rw [hr] at h <;> cases raised <;> first | rfl | cases h
  | enterFail hpc | exitRaise m level hpc =>
    rw [hpc] at h
    rw [beq_iff_eq.mp h]
    rfl
  | handle type hpc hready => exact bne_iff_ne.mpr hready
  | ready | handleReady => rfl
  | _ =>
    all_goals
      rw [‹s.pc = _›] at h
      exact h

/-- What `run` opens. -/
inductive Resource where
  /-- The override scope. -/
  | overrides
  /-- The Runner. -/
  | runner
  /-- `stack`, with the Frame of the thread. -/
  | stack
  /-- `execution`, with the logging bindings of the attempt. -/
  | execution
  /-- `scope`, the `worker_attempt` on the Runner. -/
  | scope
  /-- The attempt of the bridge. -/
  | bridge
  deriving DecidableEq

/-- What the `with` and `try` blocks around a program point have open, the innermost first. -/
def PC.held : PC → List Resource
  | .initializing | .publishing | .readying | .head _ | .running _ | .delaying .. | .restarting ..
  | .tearing _ => [.stack, .runner, .overrides]
  | .setup _ => [.execution, .stack, .runner, .overrides]
  | .invoking _ | .executing _ | .registering _ | .awaiting _ | .clearing .. | .settling ..
  | .closing .. => [.bridge, .scope, .execution, .stack, .runner, .overrides]
  | .exiting .. => [.scope, .execution, .stack, .runner, .overrides]
  | .dropping _ | .leaving _ => [.runner, .overrides]
  | .new | .entering | .handling | .finishing | .finished => []

/-- The program points whose step closes a resource, or fails to. -/
def PC.closes : PC → Resource → Bool
  | .closing .., .bridge => true
  | .exiting .., .scope | .exiting .., .execution | .setup _, .execution => true
  | .tearing _, .stack => true
  | .leaving _, .runner | .leaving _, .overrides => true
  | _, _ => false

/-- **What is open stays open until the thread is where it is closed.** -/
theorem held_step {x : Resource} (hst : Step auto_restart s a t) (hx : x ∈ s.pc.held) :
    x ∈ t.pc.held ∨ s.pc.closes x = true := by
  cases hst with
  | cancel | stop | stopTask | stopIdle => exact .inl hx
  | fail hpc =>
    rcases hpc with hpc | ⟨m, hpc⟩ | ⟨m, level, raised, hpc⟩ <;> rw [hpc] at hx ⊢ <;>
      cases x <;> simp [PC.held, PC.closes] at hx ⊢
  | escape m level hpc =>
    rcases hpc with hpc | ⟨type, hpc⟩ <;> rw [hpc] at hx <;> exact .inl hx
  | _ =>
    all_goals
      have hpc := ‹s.pc = _›
      rw [hpc] at hx ⊢
      cases x <;> simp [PC.held, PC.closes, State.transition] at hx ⊢

/-- `done` is resolved by the last step of the thread. -/
theorem done_step (hst : Step auto_restart s a t) (h : s.done = true ↔ s.pc = .finished) :
    t.done = true ↔ t.pc = .finished := by
  cases hst with
  | cancel | stop | stopTask | stopIdle => exact h
  | done => exact iff_of_true rfl rfl
  | fail hpc =>
    rcases hpc with hpc | ⟨m, hpc⟩ | ⟨m, level, raised, hpc⟩ <;> rw [hpc] at h <;> simpa using h
  | escape m level hpc => rcases hpc with hpc | ⟨type, hpc⟩ <;> rw [hpc] at h <;> simpa using h
  | closeRunner raised again hpc =>
    rw [hpc] at h
    cases raised <;> cases again <;> simpa using h
  | _ =>
    all_goals
      rw [‹s.pc = _›] at h
      simpa [State.transition] using h

/-! ## Progress -/

/-- The step is one of the thread itself. -/
def Label.own : Label → Bool
  | .stop _ | .stopped _ _ | .cancel _ => false
  | _ => true

/-- How many steps the thread has left, at most, once it is told to stop. -/
def PC.rank : PC → Nat
  | .new => 23
  | .entering => 22
  | .initializing => 21
  | .publishing => 20
  | .readying => 19
  | .running _ => 18
  | .setup _ => 17
  | .invoking _ => 16
  | .executing _ => 15
  | .registering _ => 14
  | .awaiting _ => 13
  | .clearing _ _ => 12
  | .settling _ _ => 11
  | .closing _ _ _ => 10
  | .exiting _ _ _ => 9
  | .delaying _ _ => 8
  | .restarting _ _ => 7
  | .head _ => 6
  | .tearing _ => 5
  | .dropping _ => 4
  | .leaving _ => 3
  | .handling => 2
  | .finishing => 1
  | .finished => 0

/-- **Only the test of the event leads back to an attempt.** -/
theorem rank_step (hst : Step auto_restart s a t) (h : s.pc.allows s.ready = true)
    (hready : s.ready = .pending ∨ s.stop_event = true) :
    t.pc.rank + (if a.own then 1 else 0) ≤ s.pc.rank := by
  cases hst with
  | cancel | stop | stopTask | stopIdle => exact Nat.le_refl _
  | next m hpc hstop =>
    rw [hpc] at h
    rw [hstop, beq_iff_eq.mp h] at hready
    simp at hready
  | fail hpc =>
    rcases hpc with hpc | ⟨m, hpc⟩ | ⟨m, level, raised, hpc⟩ <;> simp [hpc, PC.rank, Label.own]
  | escape m level hpc => rcases hpc with hpc | ⟨type, hpc⟩ <;> simp [hpc, PC.rank, Label.own]
  | closeRunner raised again hpc =>
    cases raised <;> cases again <;> simp [hpc, PC.rank, Label.own]
  | _ => all_goals simp [‹s.pc = _›, PC.rank, Label.own, State.transition]

theorem allows_init (h0 : Init s) : s.pc.allows s.ready = true := by
  rw [h0.pc, h0.ready]
  rfl

theorem done_init (h0 : Init s) : s.done = true ↔ s.pc = .finished := by
  rw [h0.pc, h0.done]
  simp

end LclFastapi.Background.Thread

namespace LclFastapi.Background.Manager

open LclFastapi.Lib

variable {W : Type} [DecidableEq W] {workers : List W} {auto_restart : W → Bool}
variable {s t : State W} {a : Label W} {w : W}

/-! ## What the manager waits for -/

/-- The step is one of the thread of this worker. -/
def Label.ownOf (w : W) : Label W → Bool
  | .thread v l => decide (v = w) && l.own
  | _ => false

/-- A step of the manager is a step of one thread, or of none. -/
theorem worker_step (h : Step workers auto_restart s a t) (w : W) :
    t.worker w = s.worker w ∧ a.ownOf w = false ∨
      ∃ l, Thread.Step (auto_restart w) (s.worker w) l (t.worker w) ∧
        (a.ownOf w = true → l.own = true) := by
  have hset : ∀ (v : W) (l : Thread.Label) (u : Thread.State),
      Thread.Step (auto_restart v) (s.worker v) l u →
      (s.setWorker v u).worker w = s.worker w ∧ Label.ownOf w (.thread v l) = false ∨
        ∃ l', Thread.Step (auto_restart w) (s.worker w) l' ((s.setWorker v u).worker w) ∧
          (Label.ownOf w (.thread v l) = true → l'.own = true) := by
    intro v l u hst
    by_cases hvw : w = v
    · subst hvw
      refine .inr ⟨l, by simpa using hst, fun hown => ?_⟩
      simpa [Label.ownOf] using hown
    · exact .inl ⟨by simp [hvw], by simp [Label.ownOf, Ne.symm hvw]⟩
  cases h with
  | start t hs =>
    cases hs with
    | launch v rest u hs hstep hnew =>
      rcases hset v .inner u hstep with ⟨hw, -⟩ | ⟨l, hst, -⟩
      · exact .inl ⟨hw, rfl⟩
      · exact .inr ⟨l, hst, fun hown => by cases hown⟩
    | _ => all_goals exact .inl ⟨rfl, rfl⟩
  | retire t a hs =>
    cases hs with
    | signal v rest c u hs hstep => exact hset v _ u hstep
    | locked v rest c scheduled u hs hstep => exact hset v _ u hstep
    | _ => all_goals exact .inl ⟨rfl, rfl⟩
  | stop t a hs => cases hs <;> exact .inl ⟨rfl, rfl⟩
  | thread v l u hstep hnew => exact hset v l u hstep
  | pumpFail | pumpEnd | teardown => exact .inl ⟨rfl, rfl⟩

/-- What every step of a thread keeps is kept by every step of the manager. -/
theorem keep_worker {P : Thread.State → Prop}
    (hs : ∀ u l v, Thread.Step (auto_restart w) u l v → P u → P v)
    (h : Step workers auto_restart s a t) (hp : P (s.worker w)) : P (t.worker w) := by
  rcases worker_step h w with ⟨hw, -⟩ | ⟨l, hst, -⟩
  · rw [hw]
    exact hp
  · exact hs _ _ _ hst hp

/-- A step of the thread itself leaves it started. -/
theorem started_step {restart : Bool} {u v : Thread.State} {l : Thread.Label}
    (h : Thread.Step restart u l v) (hu : u.pc ≠ .new ∨ l.own = true) : v.pc ≠ .new := by
  cases h with
  | cancel | stop | stopTask | stopIdle => exact hu.resolve_right Bool.false_ne_true
  | closeRunner raised again hpc => cases raised <;> cases again <;> simp
  | _ => all_goals simp [Thread.State.transition]

/-- The workers `retire` has still to tell. -/
def Retire.untold : Retire W → Option (List W)
  | .none | .created => Option.none
  | .signalling rest | .locking _ _ rest => some rest
  | _ => some []

/-- What holds of the threads the manager waits for. -/
structure Waits (workers : List W) (s : State W) : Prop where
  allows : ∀ w, (s.worker w).pc.allows (s.worker w).ready = true
  done : ∀ w, (s.worker w).done = true ↔ (s.worker w).pc = .finished
  launched : ∀ w rest, s.start = .initializing w rest → s.Started w
  told : ∀ rest, s.retirement.untold = some rest →
    ∀ w ∈ workers, w ∈ rest ∨ (s.worker w).stop_event = true

omit [DecidableEq W] in
theorem Waits.init (h : Init s) : Waits workers s where
  allows w := Thread.allows_init (h.worker w)
  done w := Thread.done_init (h.worker w)
  launched w rest hs := by simp [h.start] at hs
  told rest hr := by simp [h.retirement, Retire.untold] at hr

theorem stop_of_step {restart : Bool} {u v : Thread.State} {n : Nat}
    (h : Thread.Step restart u (.stop n) v) : v.stop_event = true := by
  cases h with
  | stop => rfl

theorem Waits.launched_step (hx : Waits workers s) (hst : Step workers auto_restart s a t) :
    ∀ w rest, t.start = .initializing w rest → t.Started w := by
  intro w rest hs
  have hkeep : s.start = .initializing w rest → t.Started w := fun hw =>
    keep_worker (P := fun u => u.pc ≠ .new) (fun _ _ _ h hu => started_step h (.inl hu)) hst
      (hx.launched w rest hw)
  cases hst with
  | start t h =>
    cases h with
    | launch v rest' u hs' hstep hnew =>
      obtain ⟨rfl, rfl⟩ : v = w ∧ rest' = rest := by simpa using hs
      have hu := started_step hstep (.inr rfl)
      simpa [State.Started] using hu
    | _ => all_goals cases hs
  | retire t a h =>
    cases h <;> exact hkeep hs
  | stop t a h => cases h <;> exact hkeep hs
  | thread | pumpFail | pumpEnd | teardown => exact hkeep hs

theorem Waits.told_step (hx : Waits workers s) (hst : Step workers auto_restart s a t) :
    ∀ rest, t.retirement.untold = some rest →
      ∀ w ∈ workers, w ∈ rest ∨ (t.worker w).stop_event = true := by
  intro rest hr w hw
  have hkeep : ∀ rest', s.retirement.untold = some rest' →
      w ∈ rest' ∨ (t.worker w).stop_event = true := fun rest' h =>
    (hx.told rest' h w hw).imp_right fun hstop =>
      keep_worker (P := fun u => u.stop_event = true) (fun _ _ _ h => Thread.stop_event_step h) hst
        hstop
  cases hst with
  | retire t a h =>
    cases h with
    | enter hs =>
      obtain rfl : workers = rest := by simpa [Retire.untold] using hr
      exact .inl hw
    | signal v rest' c u hs hstep =>
      obtain rfl : rest' = rest := by simpa [Retire.untold] using hr
      rcases hkeep _ (by rw [hs]; rfl) with hm | hstop
      · rcases List.mem_cons.mp hm with rfl | hm
        · exact .inr (by simpa using stop_of_step hstep)
        · exact .inl hm
      · exact .inr hstop
    | locked v rest' c scheduled u hs hstep =>
      exact hkeep rest (by rw [hs]; exact hr)
    | finish hs =>
      have hnil : rest = [] := by
        simp only at hr
        split at hr <;> simpa [Retire.untold] using hr.symm
      exact hkeep rest (by rw [hs, hnil]; rfl)
    | _ =>
      all_goals
        refine hkeep rest ?_
        rw [‹s.retirement = _›]
        exact hr
  | stop t a h =>
    cases h with
    | call c hc hstart hnot =>
      refine hkeep rest ?_
      cases hret : s.retirement <;> rw [hret] at hr <;> exact hr
    | _ => all_goals exact hkeep rest hr
  | start t h => cases h <;> exact hkeep rest hr
  | thread | pumpFail | pumpEnd | teardown => exact hkeep rest hr

theorem Waits.step (hx : Waits workers s) (hst : Step workers auto_restart s a t) :
    Waits workers t where
  allows w := keep_worker (P := fun u => u.pc.allows u.ready = true)
    (fun _ _ _ h => Thread.allows_step h) hst (hx.allows w)
  done w := keep_worker (P := fun u => u.done = true ↔ u.pc = .finished)
    (fun _ _ _ h => Thread.done_step h) hst (hx.done w)
  launched := hx.launched_step hst
  told := hx.told_step hst

theorem rank_worker (hx : Waits workers s) (hst : Step workers auto_restart s a t)
    (h : (s.worker w).ready = .pending ∨ (s.worker w).stop_event = true) :
    (t.worker w).pc.rank + (if a.ownOf w then 1 else 0) ≤ (s.worker w).pc.rank := by
  rcases worker_step hst w with ⟨hw, hown⟩ | ⟨l, hth, hown⟩
  · rw [hw, hown]
    exact Nat.le_refl _
  · have hrank := Thread.rank_step hth (hx.allows w) h
    by_cases ho : a.ownOf w = true
    · simpa [ho, hown ho] using hrank
    · rw [if_neg ho]
      omega

end LclFastapi.Background.Manager
