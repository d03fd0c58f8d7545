import LclFastapi.Background.Promises
import LclFastapi.Background.Serving

/-!
# The threads with their bridges (`background/thread.py`, `background/bridge.py`)

The manager and its threads (`Manager.lean`), each with its bridge (`Bridge.lean`) on the one
service loop. `WorkerThread.run` moves its bridge where it calls the executable, where
`close_attempt` returns and where it exits the scopes of the attempt; the loop serves the bridges,
and runs the manager, one handle after the other.

* `close_attempt` returns what its drain ends with, or raises: at its call, or when the loop closes
  under it. A drain that has the loop in its hands is not interrupted.
* `Linked` is the invariant: where a thread is in an attempt, its bridge is too.
* `left_step` is the measure of what a thread that is told to stop has still to do, and
  **`Linked.onward`** says that it is never stuck, with no `Spinning` drain on the loop.
* **`Stranded.step`**: a thread waits for ever for a drain that spins.
-/

namespace LclFastapi.Background.Service

open LclFastapi.Lib

variable {W : Type}

/-! ## States and steps -/

/-- The manager with its threads, and the bridge of every thread. -/
structure State (W : Type) where
  manager : Manager.State W
  bridge : W → Bridge.State

/-- A manager that has just been constructed, and bridges without submissions. -/
structure Init (s : State W) : Prop where
  manager : Manager.Init s.manager
  bridge : ∀ w, Bridge.Init (s.bridge w)

/-- No drain has the loop in its hands. -/
def State.Free (s : State W) : Prop := ∀ w, (s.bridge w).drain ≠ .testing

/-- The program points of `run` whose step moves the bridge. -/
def moves : Thread.PC → Bool
  | .invoking _ | .closing .. | .exiting .. => true
  | _ => false

/-- What a step of a thread, from `u` to `v`, does to its bridge. -/
inductive Moves (u v : Thread.State) (b : Bridge.State) : Bridge.State → Prop
  | keep (h : v.pc = u.pc ∨ moves u.pc = false) : Moves u v b b
  /-- The executable is called. -/
  | invoke (n : Nat) (b' : Bridge.State) (hu : u.pc = .invoking n) (hv : v.pc = .executing n)
      (h : Bridge.Step b (.attempt n) b') : Moves u v b b'
  /-- `close_attempt` returns. -/
  | close (n : Nat) (level : Int) (raised : Bool) (b' : Bridge.State)
      (hu : u.pc = .closing n level raised) (hv : v.pc = .exiting n level raised)
      (h : Bridge.Step b (.closed n) b') : Moves u v b b'
  /-- The scopes of the attempt are exited, or their exit raises. -/
  | exit (n : Nat) (level : Int) (raised : Bool) (b' : Bridge.State)
      (hu : u.pc = .exiting n level raised) (hne : v.pc ≠ u.pc) (h : Bridge.Step b (.exit n) b') :
      Moves u v b b'
  /-- They are exited after a `close_attempt` that has raised. -/
  | abandon (n : Nat) (level : Int) (raised : Bool) (hu : u.pc = .exiting n level raised)
      (hb : b.pc ≠ .exiting n) : Moves u v b b

/-- What a step does. -/
inductive Label (W : Type) where
  | manager (label : Manager.Label W)
  /-- The thread of this worker calls `close_attempt`. -/
  | close (worker : W)
  /-- `close_attempt` raises. -/
  | raise (worker : W)
  /-- A step of the bridge of this worker, on the loop or by an operation. -/
  | bridge (worker : W) (label : Bridge.Label)

variable [DecidableEq W] {workers : List W} {auto_restart : W → Bool}
variable {s t : State W} {a : Label W} {v w : W}

def State.setBridge (s : State W) (w : W) (b : Bridge.State) : State W :=
  { s with bridge := Function.update s.bridge w b }

section SetBridge

variable (s : State W) (v w : W) (b : Bridge.State)

@[simp, grind =] theorem State.setBridge_bridge :
    (s.setBridge w b).bridge v = if v = w then b else s.bridge v := Function.update_apply ..

@[simp, grind =] theorem State.setBridge_manager : (s.setBridge w b).manager = s.manager := rfl

end SetBridge

/-- The thread of this worker after `close_attempt` has raised. -/
def State.raise (s : State W) (w : W) (n : Nat) (level : Int) : State W :=
  { s with
    manager := s.manager.setWorker w { s.manager.worker w with pc := .exiting n level true } }

/-- The atomic steps of the manager, the threads and the service loop. -/
inductive Step (workers : List W) (auto_restart : W → Bool) : State W → Label W → State W → Prop
  /-- A step of the manager on the loop, or of a thread or someone who stops it. -/
  | manager (s : State W) (a : Manager.Label W) (m : Manager.State W) (bridge : W → Bridge.State)
      (h : Manager.Step workers auto_restart s.manager a m)
      (hmoves : ∀ w, Moves (s.manager.worker w) (m.worker w) (s.bridge w) (bridge w))
      (hloop : s.Free ∨ ∃ w u, m = s.manager.setWorker w u) :
      Step workers auto_restart s (.manager a) ⟨m, bridge⟩
  | close (s : State W) (w : W) (n : Nat) (level : Int) (raised : Bool) (b : Bridge.State)
      (hpc : (s.manager.worker w).pc = .closing n level raised)
      (h : Bridge.Step (s.bridge w) (.close n) b) :
      Step workers auto_restart s (.close w) (s.setBridge w b)
  | raise (s : State W) (w : W) (n : Nat) (level : Int) (raised : Bool)
      (hpc : (s.manager.worker w).pc = .closing n level raised)
      (hdrain : (s.bridge w).drain ≠ .testing) :
      Step workers auto_restart s (.raise w) (s.raise w n level)
  /-- The loop serves a bridge only when no other one has it in its hands. -/
  | bridge (s : State W) (w : W) (a : Bridge.Label) (b : Bridge.State)
      (h : Bridge.Step (s.bridge w) a b) (ha : a.ofRun = false)
      (hloop : (s.bridge w).queue <+: b.queue ∨ ∀ v, v ≠ w → (s.bridge v).drain ≠ .testing) :
      Step workers auto_restart s (.bridge w a) (s.setBridge w b)

/-! ## What a step does to the manager, and to one bridge -/

/-- **Every step is one of the manager, or leaves it as it is.** -/
theorem manager_step (h : Step workers auto_restart s a t) :
    t.manager = s.manager ∨ ∃ l, Manager.Step workers auto_restart s.manager l t.manager := by
  cases h with
  | manager l m bridge h => exact .inr ⟨l, h⟩
  | raise w n level raised hpc =>
    have hst : Thread.Step (auto_restart w) _ _ _ := .close _ n level raised true hpc
    rw [Bool.or_true] at hst
    have hstarted : s.manager.Started w := fun hnew => by simp [hpc] at hnew
    exact .inr ⟨.thread w .inner, .thread _ w _ _ hst (absurd hstarted)⟩
  | close | bridge => exact .inl rfl

/-- What every step of the manager keeps is kept. -/
theorem keep_manager {P : Manager.State W → Prop}
    (hs : ∀ m l m', Manager.Step workers auto_restart m l m' → P m → P m')
    (h : Step workers auto_restart s a t) (hp : P s.manager) : P t.manager := by
  rcases manager_step h with hm | ⟨l, hm⟩
  · rwa [hm]
  · exact hs _ _ _ hm hp

theorem Moves.step {u v : Thread.State} {b b' : Bridge.State} (h : Moves u v b b') :
    b' = b ∨ ∃ l, Bridge.Step b l b' := by
  cases h with
  | keep | abandon => exact .inl rfl
  | invoke n b' hu hv hst => exact .inr ⟨_, hst⟩
  | close n level raised b' hu hv hst => exact .inr ⟨_, hst⟩
  | exit n level raised b' hu hne hst => exact .inr ⟨_, hst⟩

/-- A thread that does nothing leaves its bridge as it is. -/
theorem Moves.eq_self {u : Thread.State} {b b' : Bridge.State} (h : Moves u u b b') : b' = b := by
  cases h with
  | keep | abandon => rfl
  | invoke n b' hu hv => exact nomatch hu.symm.trans hv
  | close n level raised b' hu hv => exact nomatch hu.symm.trans hv
  | exit n level raised b' hu hne => exact absurd rfl hne

/-- **Every step takes a bridge one step, or leaves it as it is.** -/
theorem bridge_step (h : Step workers auto_restart s a t) (w : W) :
    t.bridge w = s.bridge w ∨ ∃ l, Bridge.Step (s.bridge w) l (t.bridge w) := by
  have hset : ∀ v b l, Bridge.Step (s.bridge v) l b →
      (s.setBridge v b).bridge w = s.bridge w ∨
        ∃ l, Bridge.Step (s.bridge w) l ((s.setBridge v b).bridge w) := by
    intro v b l hst
    by_cases hvw : w = v
    · subst hvw
      exact .inr ⟨l, by simpa using hst⟩
    · exact .inl (by simp [hvw])
  cases h with
  | manager l m bridge h hmoves => exact (hmoves w).step
  | close v n level raised b hpc hst => exact hset v b _ hst
  | raise => exact .inl rfl
  | bridge v l b hst => exact hset v b l hst

/-! ## Where a thread and its bridge are -/

/-- Where the bridge is while its thread is at a program point. -/
def Tied : Thread.PC → Bridge.PC → Prop
  | .new, q | .entering, q | .initializing, q | .publishing, q | .readying, q => q = .idle 0
  | .head n, q | .delaying n _, q | .restarting n _, q => q = .idle n
  | .running n, q | .setup n, q | .invoking n, q => ∃ m, n = m + 1 ∧ q = .idle m
  | .executing n, q | .registering n, q | .awaiting n, q | .clearing n _, q | .settling n _, q =>
    q = .entry n
  | .closing n _ _, q => q = .entry n ∨ q = .closing n
  | .exiting n _ raised, q => q = .exiting n ∨ raised = true
  | _, _ => True

/-- The exit of the scopes ends the attempt, and raises what `close_attempt` has raised. -/
theorem exiting_step {restart : Bool} {u v : Thread.State} {l : Thread.Label} {n : Nat}
    {level : Int} {raised : Bool} (hst : Thread.Step restart u l v)
    (hu : u.pc = .exiting n level raised) :
    v.pc = u.pc ∨ raised = false ∧ v.pc = .delaying n level ∨ v.pc = .tearing true := by
  cases hst with
  | cancel | stop | stopTask | stopIdle => exact .inl rfl
  | fail | exitRaise => exact .inr (.inr rfl)
  | exit m level' hpc =>
    obtain ⟨rfl, rfl, rfl⟩ := Thread.PC.exiting.inj (hu.symm.trans hpc)
    exact .inr (.inl ⟨rfl, rfl⟩)
  | escape m level' hpc => rcases hpc with hpc | ⟨type, hpc⟩ <;> simp [hu] at hpc
  | _ => all_goals simp [‹u.pc = _›] at hu

/-- **The bridge follows the thread through its attempts.** -/
theorem Tied.of_moves {restart : Bool} {u v : Thread.State} {b b' : Bridge.State}
    {l : Thread.Label} (h : Tied u.pc b.pc) (hst : Thread.Step restart u l v)
    (hm : Moves u v b b') : Tied v.pc b'.pc := by
  cases hm with
  | keep hkeep =>
    rcases hkeep with hkeep | hkeep
    · rwa [hkeep]
    · cases hst with
      | cancel | stop | stopTask | stopIdle => exact h
      | fail => trivial
      | escape m level hpc => rcases hpc with hpc | ⟨type, hpc⟩ <;> rw [hpc] at h <;> exact .inl h
      | closeRunner raised again hpc => cases raised <;> cases again <;> trivial
      | _ =>
        all_goals
          rw [‹u.pc = _›] at h hkeep
          simp_all [Tied, moves, Thread.State.transition]
  | invoke n b' hu hv hb =>
    cases hb with
    | attempt m hpc => simp [hv, Tied]
  | close n level raised b' hu hv hb =>
    cases hb with
    | closed _ hpc => simp [hv, Tied]
  | exit n level raised b' hu hne hb =>
    cases hb with
    | exit _ hpc =>
      rcases exiting_step hst hu with hv | ⟨-, hv⟩ | hv
      · exact absurd hv hne
      · simp [hv, Tied]
      · simp [hv, Tied]
  | abandon n level raised hu hne =>
    rcases exiting_step hst hu with hv | ⟨rfl, hv⟩ | hv
    · rwa [hv]
    · simp [hu, Tied, hne] at h
    · simp [hv, Tied]

/-- The threads the manager waits for, their bridges, and where both are. -/
structure Linked (workers : List W) (s : State W) : Prop where
  waits : Manager.Waits workers s.manager
  served : ∀ w, Bridge.Served (s.bridge w)
  tied : ∀ w, Tied (s.manager.worker w).pc (s.bridge w).pc

omit [DecidableEq W] in
theorem Linked.init (h : Init s) : Linked workers s where
  waits := .init h.manager
  served w := .init (h.bridge w)
  tied w := by
    rw [(h.manager.worker w).pc, (h.bridge w).pc]
    rfl

theorem Linked.tied_step (h : Linked workers s) (hst : Step workers auto_restart s a t) (w : W) :
    Tied (t.manager.worker w).pc (t.bridge w).pc := by
  have hw := h.tied w
  cases hst with
  | manager l m bridge hm hmoves =>
    rcases Manager.worker_step hm w with ⟨hsame, -⟩ | ⟨l', hth, -⟩
    · have hb := hmoves w
      rw [hsame] at hb
      simpa [hsame, hb.eq_self] using hw
    · exact hw.of_moves hth (hmoves w)
  | close v n level raised b hpc hb =>
    cases hb with
    | close _ hentry =>
      by_cases hvw : w = v
      · subst hvw
        simp [hpc, Tied]
      · simpa [hvw] using hw
  | raise v n level raised hpc hdrain =>
    by_cases hvw : w = v
    · subst hvw
      simp [State.raise, Tied]
    · simpa [State.raise, hvw] using hw
  | bridge v l b hb hl =>
    by_cases hvw : w = v
    · subst hvw
      simpa [Bridge.pc_step hb hl] using hw
    · simpa [hvw] using hw

theorem Linked.step (h : Linked workers s) (hst : Step workers auto_restart s a t) :
    Linked workers t where
  waits := keep_manager (fun _ _ _ hm hp => hp.step hm) hst h.waits
  served w := by
    rcases bridge_step hst w with hb | ⟨l, hb⟩
    · rw [hb]
      exact h.served w
    · exact (h.served w).of_step hb
  tied := h.tied_step hst

theorem Linked.run (r : Run (Step workers auto_restart)) (h0 : Init (r.state 0)) :
    ∀ i, i ≤ r.length → Linked workers (r.state i) :=
  r.invariant (.init h0) fun _ _ _ hst h => h.step hst

/-! ## What is left of a thread that is told to stop -/

/-- The step is one of the thread of this worker, or a pass of its drain. -/
def Label.ownOf (w : W) : Label W → Bool
  | .manager l => l.ownOf w
  | .close v | .raise v => decide (v = w)
  | .bridge v l => decide (v = w) && l.isPass

/-- The steps a thread has left, at most, once it is told to stop, with its call of `close_attempt`
and the passes of its drain. -/
def State.left (s : State W) (w : W) : Nat :=
  (s.manager.worker w).pc.rank +
    if 16 ≤ (s.manager.worker w).pc.rank then 2 else (s.bridge w).ahead

theorem Tied.idle {p : Thread.PC} {q : Bridge.PC} (h : Tied p q) (hp : 16 ≤ p.rank) :
    ∃ m, q = .idle m := by
  cases p with
  | new | entering | initializing | publishing | readying => exact ⟨0, h⟩
  | running | setup | invoking =>
    obtain ⟨m, -, hm⟩ := h
    exact ⟨m, hm⟩
  | _ => all_goals exact absurd hp (by simp [Thread.PC.rank])

theorem Moves.ahead_le {u v : Thread.State} {b b' : Bridge.State} (h : Moves u v b b') :
    b'.ahead ≤ b.ahead ∨ 16 ≤ u.pc.rank := by
  cases h with
  | keep | abandon => exact .inl (Nat.le_refl _)
  | invoke n b' hu => exact .inr (by simp [hu, Thread.PC.rank])
  | close n level raised b' hu hv hb =>
    cases hb
    exact .inl (Nat.zero_le _)
  | exit n level raised b' hu hne hb =>
    cases hb
    exact .inl (Nat.zero_le _)

/-- **Only the test of the event leads back to an attempt**, and no drain comes back to a pass. -/
theorem left_step (h : Linked workers s) (hspin : ¬ Bridge.Spinning (s.bridge w))
    (hst : Step workers auto_restart s a t)
    (hstop : (s.manager.worker w).ready = .pending ∨ (s.manager.worker w).stop_event = true) :
    t.left w + (if a.ownOf w then 1 else 0) ≤ s.left w := by
  have hahead := (s.bridge w).ahead_le
  cases hst with
  | manager l m bridge hm hmoves =>
    have hrank := Manager.rank_worker h.waits hm hstop
    have hahead' := (bridge w).ahead_le
    have hle := (hmoves w).ahead_le
    simp only [State.left, Label.ownOf]
    grind
  | close v n level raised b hpc hb =>
    by_cases hvw : w = v
    · subst hvw
      cases hb with
      | close _ hentry =>
        simp [State.left, Label.ownOf, hpc, hentry, Thread.PC.rank, Bridge.State.ahead,
          Bridge.State.passes]
    · simp [State.left, Label.ownOf, hvw, Ne.symm hvw]
  | raise v n level raised hpc hdrain =>
    by_cases hvw : w = v
    · subst hvw
      simp [State.left, State.raise, Label.ownOf, hpc, Thread.PC.rank]
    · simp [State.left, State.raise, Label.ownOf, hvw, Ne.symm hvw]
  | bridge v l b hb hl =>
    by_cases hvw : w = v
    · subst hvw
      have hstep := Bridge.ahead_step (h.served w).stage hspin hb hl
      simp only [State.left, Label.ownOf, State.setBridge_manager, State.setBridge_bridge,
        if_true, decide_true, Bool.true_and]
      split
      · rename_i hrank
        obtain ⟨m, hm⟩ := (h.tied w).idle hrank
        have hzero : (s.bridge w).ahead = 0 := by simp [Bridge.State.ahead, hm]
        omega
      · omega
    · simp [State.left, Label.ownOf, hvw, Ne.symm hvw]

/-! ## A thread goes on -/

/-- The system takes a step of a thread that its bridge can follow. -/
theorem Step.thread (w : W) {u : Thread.State} {b : Bridge.State} {l : Thread.Label}
    (hst : Thread.Step (auto_restart w) (s.manager.worker w) l u) (hstarted : s.manager.Started w)
    (hm : Moves (s.manager.worker w) u (s.bridge w) b) :
    Step workers auto_restart s (.manager (.thread w l))
      ⟨s.manager.setWorker w u, Function.update s.bridge w b⟩ := by
  refine .manager s _ _ _ (.thread s.manager w l u hst (absurd hstarted)) (fun v => ?_)
    (.inr ⟨w, u, rfl⟩)
  by_cases hvw : v = w
  · subst hvw
    simpa using hm
  · simpa [hvw] using Moves.keep (.inl rfl)

/-- The thread waits in `close_attempt` for a drain that has finished tasks only. -/
structure Stranded (s : State W) (w : W) : Prop where
  closing : ∃ n level raised, (s.manager.worker w).pc = .closing n level raised
  spinning : Bridge.Spinning (s.bridge w)

omit [DecidableEq W] in
theorem Stranded.started (hx : Stranded s w) : s.manager.Started w := by
  obtain ⟨n, level, raised, hpc⟩ := hx.closing
  exact fun hnew => nomatch hpc.symm.trans hnew

omit [DecidableEq W] in
/-- Its `done` is pending. -/
theorem Stranded.pending (hx : Stranded s w) (h : Linked workers s) :
    (s.manager.worker w).done = false := by
  obtain ⟨n, level, raised, hpc⟩ := hx.closing
  have hdone := h.waits.done w
  simpa [hpc] using hdone

/-- **It waits for ever.** -/
theorem Stranded.step (hx : Stranded s w) (h : Linked workers s)
    (hst : Step workers auto_restart s a t) : Stranded t w := by
  obtain ⟨n, level, raised, hpc⟩ := hx.closing
  have htesting := hx.spinning.drain
  have hspinning : Bridge.Spinning (t.bridge w) := by
    rcases bridge_step hst w with hb | ⟨l, hb⟩
    · rw [hb]
      exact hx.spinning
    · exact (hx.spinning.step (h.served w).stage hb).1
  refine ⟨⟨n, level, raised, ?_⟩, hspinning⟩
  cases hst with
  | manager l m bridge hm hmoves =>
    have hw := hmoves w
    generalize bridge w = b at hw
    cases hw with
    | keep hkeep => simpa [hpc, moves] using hkeep
    | close n' level' raised' b' hu hv hb =>
      cases hb with
      | closed _ _ hd => simp [htesting] at hd
    | invoke n' b' hu | exit n' level' raised' b' hu | abandon n' level' raised' hu =>
      simp [hpc] at hu
  | close | bridge => exact hpc
  | raise v m level' raised' hpc' hdrain =>
    have hwv : w ≠ v := fun hwv => hdrain (hwv ▸ htesting)
    simpa [State.raise, hwv] using hpc

/-- `close_attempt` ends with a step of the thread. -/
theorem closing_step {restart : Bool} {u v : Thread.State} {l : Thread.Label} {n : Nat}
    {level : Int} {raised : Bool} (hst : Thread.Step restart u l v) (hown : l.own = true)
    (hu : u.pc = .closing n level raised) : ∃ again, v.pc = .exiting n level again := by
  cases hst with
  | cancel | stop | stopTask | stopIdle => cases hown
  | close m level' raised' again hpc =>
    obtain ⟨rfl, rfl, rfl⟩ := Thread.PC.closing.inj (hu.symm.trans hpc)
    exact ⟨_, rfl⟩
  | fail hpc => rcases hpc with hpc | ⟨m, hpc⟩ | ⟨m, level', raised', hpc⟩ <;> simp [hu] at hpc
  | escape m level' hpc => rcases hpc with hpc | ⟨type, hpc⟩ <;> simp [hu] at hpc
  | _ => all_goals simp [‹u.pc = _›] at hu

end LclFastapi.Background.Service
