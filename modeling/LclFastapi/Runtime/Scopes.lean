import LclFastapi.Lib.Flock
import LclFastapi.Runtime.Service

/-!
# The scopes of a master in its forked children (`file_lock`, `service_runtime`,
`controller_logging`, `controller_fork`)

A master enters the four scopes one inside the other and forks in a body of any of them. The child
has a copy of the stack of entered scopes, of the writer and of every descriptor, and leaves the
scopes by the same code as the master, in any way and at any time.

* `Unwind` is that code, one guarded operation a step: the `finally` and `except` clauses of the
  four scopes in the process `getpid`. What the enclosing body does with an exit is left open.
* Between its scopes the master writes files and log records as it likes, and any process may die.
  The kernel closes the descriptors of a dead process one at a time.
* Processes outside the tree of the master do what they like with files and with the descriptions
  they have open (`Step.third`). No later process of the tree has the pid of the master.

**`harmless`**: the unwinding of a child changes no file, no log and no writer; nobody else gets
`service.lock` until the master leaves its scope; and then the lock is free, whatever children still
have its descriptor open.
-/

namespace LclFastapi.Runtime.Scopes

open Lib (Flock Run)
open Service (Files Start ofStart)

/-! ## Processes -/

/-- An entered scope, with what its exit compares with `os.getpid()`. -/
inductive Scope where
  /-- `file_lock(directory / "service.lock")`, with its open file description. -/
  | lock (creator_pid : Nat) (d : Nat)
  | runtime (creator_pid : Nat) (start : Start)
  | logging (owner : Nat)
  | fork (owner : Nat)

/-- The pid that the scope has kept. -/
def Scope.owner : Scope → Nat
  | .lock creator_pid _ | .runtime creator_pid _ => creator_pid
  | .logging owner | .fork owner => owner

/-- How a body is left. -/
inductive Exit where
  | returned
  | raised
  | systemExit (code : Value)

/-- `not (isinstance(error, SystemExit) and error.code in (None, 0))`, for an exit by an error. -/
def Exit.failure : Exit → Bool
  | .returned => false
  | .raised => true
  | .systemExit code => !(code.pyEq .null || code.pyEq (.int 0))

/-- The file operations in the `finally` of `service_runtime`. -/
inductive Removal where
  /-- `cleanup_stale`, which leaves the files here alone. -/
  | stale
  | runtime
  | shutdown
  | reload
  | control
  | observations
  | pid
  | token

/-- The clean-up of a start, in its order. -/
def removals : List Removal :=
  [.stale, .runtime, .shutdown, .reload, .control, .observations, .pid, .token]

/-- What an operation of the clean-up does to the files. -/
def Removal.apply (start : Start) : Removal → Files → Files
  | .stale, f => f
  | .runtime, f => { f with runtime := .absent }
  | .shutdown, f => { f with shutdown := .absent }
  | .reload, f => { f with reload := .absent }
  | .control, f => { f with control := .absent }
  | .observations, f =>
    { f with
      observations := fun path =>
        if ofStart (f.observations path) start then .absent else f.observations path }
  | .pid, f => { f with pid := none }
  | .token, f => { f with token := none }

/-- Where a process is in the exit of its innermost scope. -/
inductive Stage where
  /-- The `finally` of `controller_fork`. -/
  | reopen
  /-- The `except` of `controller_logging`. -/
  | failed (exit : Exit)
  | stopped
  | close
  /-- The `finally` of `service_runtime`. -/
  | clean
  | remove (todo : List Removal)
  /-- The `finally` of `file_lock`. -/
  | release
  /-- The end of `with path.open("a+b")`. -/
  | closeFile

/-- The first stage of an exit. -/
def Scope.exitStage (exit : Exit) : Scope → Stage
  | .lock _ _ => .release
  | .runtime _ _ => .clean
  | .logging _ => match exit with
    | .returned => .stopped
    | _ => .failed exit
  | .fork _ => .reopen

/-- Where a process is. -/
inductive PC where
  | body
  | leaving (stage : Stage)
  /-- Dead. -/
  | gone

/-- A process of the service. -/
structure Proc where
  /-- The innermost scope first. -/
  stack : List Scope
  pc : PC
  /-- `writer.runner is not None`. -/
  writer : Bool

/-- What processes share. -/
structure World where
  /-- The descriptions of `service.lock`. -/
  flock : Flock Nat
  files : Files
  /-- The records of the controller log. -/
  log : List String

/-- The exit has come to a stage. -/
def Proc.goto (pr : Proc) (stage : Stage) : Proc := { pr with pc := .leaving stage }

/-- The innermost scope is left. -/
def Proc.pop (pr : Proc) : Proc := { pr with stack := pr.stack.tail, pc := .body }

/-- The writer of the process opens or closes. -/
def Proc.withWriter (pr : Proc) (writer : Bool) : Proc := { pr with writer := writer }

/-- Lines are logged. -/
def World.emit (w : World) (events : List String) : World := { w with log := w.log ++ events }

/-! ## The exits -/

/-- One step of leaving the innermost scope, in the process `getpid`. -/
inductive Unwind (getpid : Nat) : Proc → World → Proc → World → Prop
  | leave (pr : Proc) (w : World) (scope : Scope) (rest : List Scope) (exit : Exit)
      (hpc : pr.pc = .body) (hst : pr.stack = scope :: rest) :
      Unwind getpid pr w (pr.goto (scope.exitStage exit)) w
  /-- `controller.writer.open()`, which may raise. -/
  | reopen (pr : Proc) (w : World) (owner : Nat) (rest : List Scope) (opened : Bool)
      (hpc : pr.pc = .leaving .reopen) (hst : pr.stack = .fork owner :: rest)
      (hown : getpid = owner) :
      Unwind getpid pr w (pr.pop.withWriter opened) w
  | reopenNot (pr : Proc) (w : World) (owner : Nat) (rest : List Scope)
      (hpc : pr.pc = .leaving .reopen) (hst : pr.stack = .fork owner :: rest)
      (hown : getpid ≠ owner) :
      Unwind getpid pr w pr.pop w
  | failed (pr : Proc) (w : World) (owner : Nat) (rest : List Scope) (exit : Exit)
      (hpc : pr.pc = .leaving (.failed exit)) (hst : pr.stack = .logging owner :: rest)
      (hown : getpid = owner) (hw : pr.writer = true) (hf : exit.failure = true) :
      Unwind getpid pr w (pr.goto .stopped) (w.emit ["service failed"])
  /-- The condition is false, or `emit` raises. -/
  | failedNot (pr : Proc) (w : World) (owner : Nat) (rest : List Scope) (exit : Exit)
      (hpc : pr.pc = .leaving (.failed exit)) (hst : pr.stack = .logging owner :: rest) :
      Unwind getpid pr w (pr.goto .stopped) w
  /-- The records of the last `tick`, then the end of the service. -/
  | stopped (pr : Proc) (w : World) (owner : Nat) (rest : List Scope) (events : List String)
      (hpc : pr.pc = .leaving .stopped) (hst : pr.stack = .logging owner :: rest)
      (hown : getpid = owner) (hw : pr.writer = true) :
      Unwind getpid pr w (pr.goto .close) (w.emit (events ++ ["service stopped"]))
  | stoppedRaises (pr : Proc) (w : World) (owner : Nat) (rest : List Scope) (events : List String)
      (hpc : pr.pc = .leaving .stopped) (hst : pr.stack = .logging owner :: rest)
      (hown : getpid = owner) (hw : pr.writer = true) :
      Unwind getpid pr w (pr.goto .close) (w.emit events)
  | stoppedNot (pr : Proc) (w : World) (owner : Nat) (rest : List Scope)
      (hpc : pr.pc = .leaving .stopped) (hst : pr.stack = .logging owner :: rest)
      (hown : ¬ (getpid = owner ∧ pr.writer = true)) :
      Unwind getpid pr w (pr.goto .close) w
  /-- `writer.close()`, which takes the runner away even when it raises. -/
  | close (pr : Proc) (w : World) (owner : Nat) (rest : List Scope)
      (hpc : pr.pc = .leaving .close) (hst : pr.stack = .logging owner :: rest)
      (hown : getpid = owner) :
      Unwind getpid pr w (pr.pop.withWriter false) w
  | closeNot (pr : Proc) (w : World) (owner : Nat) (rest : List Scope)
      (hpc : pr.pc = .leaving .close) (hst : pr.stack = .logging owner :: rest)
      (hown : getpid ≠ owner) :
      Unwind getpid pr w pr.pop w
  | clean (pr : Proc) (w : World) (creator_pid : Nat) (start : Start) (rest : List Scope)
      (hpc : pr.pc = .leaving .clean) (hst : pr.stack = .runtime creator_pid start :: rest)
      (hown : getpid = creator_pid) (hof : ofStart w.files.runtime start) :
      Unwind getpid pr w (pr.goto (.remove removals)) w
  | cleanOther (pr : Proc) (w : World) (creator_pid : Nat) (start : Start) (rest : List Scope)
      (hpc : pr.pc = .leaving .clean) (hst : pr.stack = .runtime creator_pid start :: rest)
      (hown : getpid = creator_pid) (hof : ¬ ofStart w.files.runtime start) :
      Unwind getpid pr w (pr.goto (.remove [.token])) w
  | cleanNot (pr : Proc) (w : World) (creator_pid : Nat) (start : Start) (rest : List Scope)
      (hpc : pr.pc = .leaving .clean) (hst : pr.stack = .runtime creator_pid start :: rest)
      (hown : getpid ≠ creator_pid) :
      Unwind getpid pr w pr.pop w
  | remove (pr : Proc) (w : World) (creator_pid : Nat) (start : Start) (rest : List Scope)
      (op : Removal) (todo : List Removal) (hpc : pr.pc = .leaving (.remove (op :: todo)))
      (hst : pr.stack = .runtime creator_pid start :: rest) :
      Unwind getpid pr w (pr.goto (.remove todo)) { w with files := op.apply start w.files }
  /-- Everything is removed, or an operation has raised. -/
  | removed (pr : Proc) (w : World) (creator_pid : Nat) (start : Start) (rest : List Scope)
      (todo : List Removal) (hpc : pr.pc = .leaving (.remove todo))
      (hst : pr.stack = .runtime creator_pid start :: rest) :
      Unwind getpid pr w pr.pop w
  | release (pr : Proc) (w : World) (creator_pid d : Nat) (rest : List Scope)
      (hpc : pr.pc = .leaving .release) (hst : pr.stack = .lock creator_pid d :: rest)
      (hown : getpid = creator_pid) :
      Unwind getpid pr w (pr.goto .closeFile) { w with flock := w.flock.unlocked d }
  | releaseNot (pr : Proc) (w : World) (creator_pid d : Nat) (rest : List Scope)
      (hpc : pr.pc = .leaving .release) (hst : pr.stack = .lock creator_pid d :: rest)
      (hown : getpid ≠ creator_pid) :
      Unwind getpid pr w (pr.goto .closeFile) w
  | closeFile (pr : Proc) (w : World) (creator_pid d : Nat) (rest : List Scope) (f : Flock Nat)
      (hpc : pr.pc = .leaving .closeFile) (hst : pr.stack = .lock creator_pid d :: rest)
      (hf : w.flock.Closes getpid d f) :
      Unwind getpid pr w pr.pop { w with flock := f }

/-! ## The processes together -/

/-- The shared world, and the processes. -/
structure State extends World where
  proc : Nat → Option Proc

/-- The process `p` moves on, in a changed world. -/
def State.moved (s : State) (p : Nat) (pr : Proc) (w : World) : State :=
  { toWorld := w, proc := Function.update s.proc p (some pr) }

/-- The master `m` has entered nothing; others may have the lock. -/
structure Init (m : Nat) (s : State) : Prop where
  master : s.proc m = some ⟨[], .body, false⟩
  alone : ∀ p, p ≠ m → s.proc p = none

/-- The steps. -/
inductive Label where
  /-- The master enters a scope or works in a body. -/
  | master
  | fork (p c : Nat)
  | unwind (p : Nat)
  | die (p : Nat)
  /-- The kernel closes a descriptor of the dead `p`. -/
  | reap (p : Nat)
  /-- A process outside the tree. -/
  | third (p : Nat) (op : Flock.Op Nat)
  | files

/-- A step of the system around the master `m`. -/
inductive Step (m : Nat) : State → Label → State → Prop
  /-- `service.lock` is opened under a new description and locked without waiting. -/
  | acquire (s : State) (pr : Proc) (d : Nat) (hp : s.proc m = some pr) (hpc : pr.pc = .body)
      (hst : pr.stack = []) (hnew : s.flock.holds d = ∅) (hfree : s.flock.locked = none) :
      Step m s .master
        (s.moved m { pr with stack := [.lock m d] }
          { s.toWorld with flock := (s.flock.opened m d).lock d })
  | enterRuntime (s : State) (pr : Proc) (creator_pid d : Nat) (start : Start)
      (hp : s.proc m = some pr) (hpc : pr.pc = .body) (hst : pr.stack = [.lock creator_pid d]) :
      Step m s .master (s.moved m { pr with stack := .runtime m start :: pr.stack } s.toWorld)
  /-- `writer.open()`, and the first record. -/
  | enterLogging (s : State) (pr : Proc) (creator_pid : Nat) (start : Start) (rest : List Scope)
      (workers : Nat) (hp : s.proc m = some pr) (hpc : pr.pc = .body)
      (hst : pr.stack = .runtime creator_pid start :: rest) :
      Step m s .master
        (s.moved m { pr with stack := .logging m :: pr.stack, writer := true }
          (s.emit [s!"service started service_pid={m} workers={workers}"]))
  /-- `controller.writer.close()`. -/
  | enterFork (s : State) (pr : Proc) (owner : Nat) (rest : List Scope)
      (hp : s.proc m = some pr) (hpc : pr.pc = .body) (hst : pr.stack = .logging owner :: rest) :
      Step m s .master
        (s.moved m { pr with stack := .fork m :: pr.stack, writer := false } s.toWorld)
  /-- The set-up of `service_runtime` and the bodies: files, records, and a writer that closes. -/
  | work (s : State) (pr : Proc) (files : Files) (events : List String) (writer : Bool)
      (hp : s.proc m = some pr) (hpc : pr.pc = .body) :
      Step m s .master
        (s.moved m (pr.withWriter writer) { s.emit events with files := files })
  /-- `os.fork()` in a body; `c` is a new process. -/
  | fork (s : State) (p c : Nat) (pr : Proc) (hp : s.proc p = some pr) (hpc : pr.pc = .body)
      (hc : s.proc c = none) (hnew : ∀ d, c ∉ s.flock.holds d) :
      Step m s (.fork p c) (s.moved c pr { s.toWorld with flock := s.flock.forked p c })
  | unwind (s : State) (p : Nat) (pr pr' : Proc) (w : World) (hp : s.proc p = some pr)
      (hu : Unwind p pr s.toWorld pr' w) : Step m s (.unwind p) (s.moved p pr' w)
  | die (s : State) (p : Nat) (pr : Proc) (hp : s.proc p = some pr) :
      Step m s (.die p) (s.moved p { pr with pc := .gone } s.toWorld)
  | reap (s : State) (p d : Nat) (pr : Proc) (f : Flock Nat) (hp : s.proc p = some pr)
      (hpc : pr.pc = .gone) (hf : s.flock.Closes p d f) :
      Step m s (.reap p) { s with flock := f }
  | third (s : State) (p : Nat) (op : Flock.Op Nat) (f : Flock Nat) (hp : s.proc p = none)
      (hop : s.flock.Step p op f) (hc : ∀ c, op = .fork c → s.proc c = none) :
      Step m s (.third p op) { s with flock := f }
  | files (s : State) (files : Files) : Step m s .files { s with files := files }

/-- The process has `service.lock` by the description `d`, and has not released it. -/
def Proc.Holding (pr : Proc) (d : Nat) : Prop :=
  (∃ creator_pid, .lock creator_pid d ∈ pr.stack) ∧ pr.pc ≠ .leaving .closeFile ∧ pr.pc ≠ .gone

/-- The master is in its `service.lock` scope. -/
def InScope (m : Nat) (s : State) (d : Nat) : Prop := ∃ pr, s.proc m = some pr ∧ pr.Holding d

/-- The writer of a process. -/
def State.writer? (s : State) (p : Nat) : Option Bool := (s.proc p).map Proc.writer

/-- What forked children must not do to the scopes of the master `m`, over a run. -/
structure Harmless (m : Nat) (r : Run (Step m)) : Prop where
  /-- A child that leaves scopes changes no file and no record, and opens or closes no writer. -/
  frame : ∀ i, i < r.length → ∀ p, p ≠ m → r.label i = .unwind p →
    (r.state (i + 1)).files = (r.state i).files ∧ (r.state (i + 1)).log = (r.state i).log ∧
      (r.state (i + 1)).writer? = (r.state i).writer?
  /-- The lock belongs to the master's description as long as the master is in its scope. -/
  held : ∀ i, i ≤ r.length → ∀ d, InScope m (r.state i) d → (r.state i).flock.locked = some d
  /-- Meanwhile nobody else acquires it. -/
  excluded : ∀ i, i < r.length → ∀ d, InScope m (r.state i) d →
    ∀ p e, r.label i ≠ .third p (.lock e)
  /-- The master's own exit releases it. -/
  released : ∀ i, i < r.length → ∀ d, InScope m (r.state i) d → ¬ InScope m (r.state (i + 1)) d →
    r.label i = .die m ∨ (r.state (i + 1)).flock.locked = none

/-! ## One exit step -/

variable {m p d : Nat} {pr pr' : Proc} {w w' : World} {s t : State}

/-- The lock scope is the outermost. -/
def LockOutermost : List Scope → Prop
  | [] => True
  | .lock _ _ :: rest => rest = []
  | _ :: rest => LockOutermost rest

theorem LockOutermost.tail {stack : List Scope} (h : LockOutermost stack) :
    LockOutermost stack.tail := by
  cases stack with
  | nil => exact h
  | cons scope rest =>
    cases scope with
    | lock => rw [show rest = [] from h]; exact trivial
    | runtime => exact h
    | logging => exact h
    | fork => exact h

theorem LockOutermost.eq_nil {rest : List Scope} {c : Nat}
    (h : LockOutermost (.lock c d :: rest)) : rest = [] := h

/-- What holds of every process `p` of the tree of the master `m`. -/
structure Proc.Ok (m p : Nat) (pr : Proc) : Prop where
  owner : ∀ scope, scope ∈ pr.stack → scope.owner = m
  outermost : LockOutermost pr.stack
  /-- Only the master removes files. -/
  removing : ∀ todo, pr.pc = .leaving (.remove todo) → p = m

theorem Proc.Ok.top (h : pr.Ok m p) {scope : Scope} {rest : List Scope}
    (hst : pr.stack = scope :: rest) : scope.owner = m :=
  h.owner scope (by rw [hst]; exact .head _)

theorem Unwind.stack (h : Unwind p pr w pr' w') :
    pr'.stack = pr.stack ∨ pr'.stack = pr.stack.tail := by
  cases h <;> first | exact .inl rfl | exact .inr rfl

theorem Unwind.removing (h : Unwind p pr w pr' w') (hok : pr.Ok m p) {todo : List Removal}
    (ht : pr'.pc = .leaving (.remove todo)) : p = m := by
  cases h with
  | leave scope _ exit _ _ => cases scope <;> cases exit <;> cases ht
  | clean _ _ _ _ hst hown _ => exact hown.trans (hok.top hst)
  | cleanOther _ _ _ _ hst hown _ => exact hown.trans (hok.top hst)
  | remove _ _ _ _ _ hpc _ => exact hok.removing _ hpc
  | _ => cases ht

theorem Unwind.ok (h : Unwind p pr w pr' w') (hok : pr.Ok m p) : pr'.Ok m p := by
  refine ⟨fun scope hs => ?_, ?_, fun todo ht => h.removing hok ht⟩
  · rcases h.stack with hst | hst <;> rw [hst] at hs
    · exact hok.owner scope hs
    · exact hok.owner scope (List.mem_of_mem_tail hs)
  · rcases h.stack with hst | hst <;> rw [hst]
    · exact hok.outermost
    · exact hok.outermost.tail

/-- **The guards of the four scopes**: in a process that has entered none of them, leaving them
closes a descriptor and does nothing else that others see. -/
theorem Unwind.foreign (h : Unwind p pr w pr' w') (hok : pr.Ok m p) (hne : p ≠ m) :
    pr'.writer = pr.writer ∧ w'.files = w.files ∧ w'.log = w.log ∧
      (w'.flock = w.flock ∨ ∃ d, w.flock.Closes p d w'.flock) := by
  have own : ∀ {scope : Scope} {rest : List Scope}, pr.stack = scope :: rest → p ≠ scope.owner := by
    intro scope rest hst hp
    exact hne (hp.trans (hok.top hst))
  cases h with
  | leave => exact ⟨rfl, rfl, rfl, .inl rfl⟩
  | reopen _ _ _ _ hst hown => exact absurd hown (own hst)
  | reopenNot => exact ⟨rfl, rfl, rfl, .inl rfl⟩
  | failed _ _ _ _ hst hown _ _ => exact absurd hown (own hst)
  | failedNot => exact ⟨rfl, rfl, rfl, .inl rfl⟩
  | stopped _ _ _ _ hst hown _ => exact absurd hown (own hst)
  | stoppedRaises _ _ _ _ hst hown _ => exact absurd hown (own hst)
  | stoppedNot => exact ⟨rfl, rfl, rfl, .inl rfl⟩
  | close _ _ _ hst hown => exact absurd hown (own hst)
  | closeNot => exact ⟨rfl, rfl, rfl, .inl rfl⟩
  | clean _ _ _ _ hst hown _ => exact absurd hown (own hst)
  | cleanOther _ _ _ _ hst hown _ => exact absurd hown (own hst)
  | cleanNot => exact ⟨rfl, rfl, rfl, .inl rfl⟩
  | remove _ _ _ _ _ hpc _ => exact absurd (hok.removing _ hpc) hne
  | removed => exact ⟨rfl, rfl, rfl, .inl rfl⟩
  | release _ _ _ _ hst hown => exact absurd hown (own hst)
  | releaseNot => exact ⟨rfl, rfl, rfl, .inl rfl⟩
  | closeFile _ d _ f _ _ hf => exact ⟨rfl, rfl, rfl, .inr ⟨d, hf⟩⟩

theorem Scope.exitStage_ne (scope : Scope) (exit : Exit) : scope.exitStage exit ≠ .closeFile := by
  cases scope <;> cases exit <;> nofun

theorem Unwind.alive (h : Unwind p pr w pr' w') : pr.pc ≠ .gone := by
  intro hg
  cases h <;> simp_all

/-- The last stage closes the file. -/
theorem Unwind.closed (h : Unwind p pr w pr' w') (hok : pr.Ok m p)
    (hpc : pr.pc = .leaving .closeFile) : pr'.stack = [] := by
  cases h with
  | closeFile _ _ _ _ _ hst _ =>
    have hout := hok.outermost
    rw [hst] at hout
    show pr.stack.tail = []
    rw [hst, hout.eq_nil]
    rfl
  | _ => simp_all

theorem Proc.Holding.goto {stage : Stage} (h : pr.Holding d) (hne : stage ≠ .closeFile) :
    (pr.goto stage).Holding d :=
  ⟨h.1, fun hc => hne (PC.leaving.inj hc), nofun⟩

theorem Proc.Holding.pop {scope : Scope} {rest : List Scope} (h : pr.Holding d)
    (hst : pr.stack = scope :: rest) (hne : ∀ c e, scope ≠ .lock c e) : pr.pop.Holding d := by
  obtain ⟨c, hc⟩ := h.1
  refine ⟨⟨c, ?_⟩, nofun, nofun⟩
  show Scope.lock c d ∈ pr.stack.tail
  rw [hst] at hc ⊢
  exact (List.mem_cons.mp hc).resolve_left fun he => hne c d he.symm

/-- A process that has the lock after an exit step had it before. -/
theorem Unwind.holding_of (h : Unwind p pr w pr' w') (hok : pr.Ok m p) (hh : pr'.Holding d) :
    pr.Holding d := by
  obtain ⟨⟨c, hc⟩, -, -⟩ := hh
  refine ⟨⟨c, ?_⟩, ?_, h.alive⟩
  · rcases h.stack with hst | hst <;> rw [hst] at hc
    · exact hc
    · exact List.mem_of_mem_tail hc
  · intro hpc
    rw [h.closed hok hpc] at hc
    cases hc

/-- The master keeps the lock through the steps of its exits, up to the explicit unlock. -/
theorem Unwind.holding (h : Unwind m pr w pr' w') (hok : pr.Ok m m) (hh : pr.Holding d) :
    pr'.Holding d ∧ w'.flock = w.flock ∨ ¬ pr'.Holding d ∧ w'.flock = w.flock.unlocked d := by
  cases h with
  | leave scope _ exit _ _ => exact .inl ⟨hh.goto (scope.exitStage_ne exit), rfl⟩
  | reopen _ _ _ _ hst _ => exact .inl ⟨hh.pop hst nofun, rfl⟩
  | reopenNot _ _ _ hst _ => exact .inl ⟨hh.pop hst nofun, rfl⟩
  | failed => exact .inl ⟨hh.goto nofun, rfl⟩
  | failedNot => exact .inl ⟨hh.goto nofun, rfl⟩
  | stopped => exact .inl ⟨hh.goto nofun, rfl⟩
  | stoppedRaises => exact .inl ⟨hh.goto nofun, rfl⟩
  | stoppedNot => exact .inl ⟨hh.goto nofun, rfl⟩
  | close _ _ _ hst _ => exact .inl ⟨hh.pop hst nofun, rfl⟩
  | closeNot _ _ _ hst _ => exact .inl ⟨hh.pop hst nofun, rfl⟩
  | clean => exact .inl ⟨hh.goto nofun, rfl⟩
  | cleanOther => exact .inl ⟨hh.goto nofun, rfl⟩
  | cleanNot _ _ _ _ hst _ => exact .inl ⟨hh.pop hst nofun, rfl⟩
  | remove => exact .inl ⟨hh.goto nofun, rfl⟩
  | removed _ _ _ _ _ hst => exact .inl ⟨hh.pop hst nofun, rfl⟩
  | release _ e rest _ hst _ =>
    -- The lock scope is the outermost, so this is the only one.
    obtain ⟨c, hc⟩ := hh.1
    have hout := hok.outermost
    rw [hst] at hc hout
    rw [hout.eq_nil] at hc
    cases List.mem_singleton.mp hc
    exact .inr ⟨fun hc => hc.2.1 rfl, rfl⟩
  | releaseNot _ _ _ _ hst hown => exact absurd (hok.top hst).symm hown
  | closeFile _ _ _ _ hpc _ _ => exact absurd hpc hh.2.1

/-! ## The invariant -/

/-- `service.lock` belongs to the master's description, which only its tree has open. -/
structure Held (m : Nat) (s : State) (d : Nat) : Prop where
  locked : s.flock.locked = some d
  mem : m ∈ s.flock.holds d
  tree : ∀ q, q ∈ s.flock.holds d → s.proc q ≠ none

/-- **The invariant.** -/
structure Inv (m : Nat) (s : State) : Prop where
  ok : ∀ p pr, s.proc p = some pr → pr.Ok m p
  master : s.proc m ≠ none
  held : ∀ d, InScope m s d → Held m s d

theorem Init.inv (h : Init m s) : Inv m s := by
  refine ⟨?_, ?_, ?_⟩
  · intro p pr hp
    by_cases hpm : p = m
    · subst hpm
      rw [h.master] at hp
      cases hp
      exact ⟨nofun, trivial, nofun⟩
    · rw [h.alone p hpm] at hp
      cases hp
  · rw [h.master]
    nofun
  · rintro d ⟨pr, hp, ⟨c, hc⟩, -, -⟩
    rw [h.master] at hp
    cases hp
    cases hc

theorem State.moved_proc_ne {q : Nat} (h : s.proc q ≠ none) : (s.moved p pr w).proc q ≠ none := by
  show Function.update s.proc p (some pr) q ≠ none
  by_cases hqp : q = p
  · rw [hqp, Function.update_self]
    nofun
  · rwa [Function.update_of_ne hqp]

theorem State.moved_ok (hs : ∀ q pr, s.proc q = some pr → pr.Ok m q) (hok : pr.Ok m p) :
    ∀ q pr', (s.moved p pr w).proc q = some pr' → pr'.Ok m q := by
  intro q pr' hq
  replace hq : Function.update s.proc p (some pr) q = some pr' := hq
  by_cases hqp : q = p
  · subst hqp
    rw [Function.update_self] at hq
    cases hq
    exact hok
  · rw [Function.update_of_ne hqp] at hq
    exact hs q pr' hq

theorem inScope_moved : InScope m (s.moved m pr w) d ↔ pr.Holding d := by
  unfold InScope State.moved
  simp

theorem inScope_moved_of_ne (hne : p ≠ m) : InScope m (s.moved p pr w) d ↔ InScope m s d := by
  unfold InScope State.moved
  simp [Function.update_of_ne hne.symm]

theorem InScope.holding (h : InScope m s d) (hp : s.proc m = some pr) : pr.Holding d := by
  obtain ⟨_, hp', hh⟩ := h
  rw [hp] at hp'
  cases hp'
  exact hh

/-- A move that leaves the descriptions alone. -/
theorem Held.moved (h : Held m s d) (hw : w.flock = s.flock) : Held m (s.moved p pr w) d := by
  have hflock : (s.moved p pr w).flock = s.flock := hw
  refine ⟨hflock ▸ h.locked, hflock ▸ h.mem, fun q hq => State.moved_proc_ne (h.tree q ?_)⟩
  rwa [hflock] at hq

/-- A move that closes a descriptor of a process of the tree. -/
theorem Held.closes {f : Lib.Flock Nat} (h : Held m s d) (hne : p ≠ m) {e : Nat}
    (hf : s.flock.Closes p e f) :
    f.locked = some d ∧ m ∈ f.holds d ∧ ∀ q, q ∈ f.holds d → s.proc q ≠ none :=
  ⟨hf.locked h.mem hne.symm h.locked, hf.mem.mpr ⟨h.mem, fun hc => hne hc.1.symm⟩,
    fun q hq => h.tree q (hf.mem.mp hq).1⟩

/-- The master enters a scope inside its lock. -/
theorem Proc.Ok.enter {scope : Scope} {writer : Bool} (h : pr.Ok m m) (hpc : pr.pc = .body)
    (hown : scope.owner = m) (hne : ∀ c e, scope ≠ .lock c e) :
    Proc.Ok m m { pr with stack := scope :: pr.stack, writer := writer } := by
  refine ⟨?_, ?_, fun _ ht => nomatch hpc.symm.trans ht⟩
  · intro other hmem
    rcases List.mem_cons.mp hmem with rfl | hmem
    · exact hown
    · exact h.owner other hmem
  · cases scope with
    | lock c e => exact absurd rfl (hne c e)
    | runtime => exact h.outermost
    | logging => exact h.outermost
    | fork => exact h.outermost

theorem Proc.Holding.enter {scope : Scope} {writer : Bool} (h : pr.Holding d) :
    Proc.Holding { pr with stack := scope :: pr.stack, writer := writer } d :=
  ⟨h.1.imp fun _ hc => .tail _ hc, h.2⟩

theorem Proc.Holding.of_enter {scope : Scope} {writer : Bool} (hne : ∀ c e, scope ≠ .lock c e)
    (h : Proc.Holding { pr with stack := scope :: pr.stack, writer := writer } d) :
    pr.Holding d := by
  obtain ⟨⟨c, hc⟩, hpc⟩ := h
  exact ⟨⟨c, (List.mem_cons.mp hc).resolve_left fun he => hne c d he.symm⟩, hpc⟩

/-- A step of the master in a body that keeps it out of locks it was not in. -/
theorem Inv.moved_master (h : Inv m s) (hp : s.proc m = some pr) (hok : pr'.Ok m m)
    (hof : ∀ d, pr'.Holding d → pr.Holding d) (hw : w.flock = s.flock) :
    Inv m (s.moved m pr' w) where
  ok := State.moved_ok h.ok hok
  master := State.moved_proc_ne h.master
  held d hd := (h.held d ⟨pr, hp, hof d (inScope_moved.mp hd)⟩).moved hw

theorem Inv.acquire (h : Inv m s) (hpc : pr.pc = .body) (d : Nat) :
    Inv m (s.moved m { pr with stack := [.lock m d] }
      { s.toWorld with flock := (s.flock.opened m d).lock d }) where
  ok := by
    refine State.moved_ok h.ok ⟨?_, rfl, fun _ ht => nomatch hpc.symm.trans ht⟩
    intro scope hs
    rw [List.mem_singleton.mp hs]
    rfl
  master := State.moved_proc_ne h.master
  held e he := by
    obtain ⟨⟨c, hc⟩, -, -⟩ := inScope_moved.mp he
    cases List.mem_singleton.mp hc
    have hmem : ∀ q, q ∈ (s.flock.opened m d).holds d ↔ q = m := by
      intro q
      rw [Lib.Flock.mem_opened, if_pos rfl]
    refine ⟨rfl, (hmem m).mpr rfl, fun q hq => State.moved_proc_ne ?_⟩
    rw [(hmem q).mp hq]
    exact h.master

theorem Inv.fork (h : Inv m s) {c : Nat} (hp : s.proc p = some pr) (hpc : pr.pc = .body)
    (hc : s.proc c = none) :
    Inv m (s.moved c pr { s.toWorld with flock := s.flock.forked p c }) := by
  have hcm : c ≠ m := by
    rintro rfl
    exact h.master hc
  have hok := h.ok p pr hp
  refine ⟨State.moved_ok h.ok ⟨hok.owner, hok.outermost, fun _ ht => nomatch hpc.symm.trans ht⟩,
    State.moved_proc_ne h.master, fun d hd => ?_⟩
  have hheld := h.held d ((inScope_moved_of_ne hcm).mp hd)
  refine ⟨hheld.locked, .inl hheld.mem, fun q hq => ?_⟩
  rcases hq with hq | ⟨rfl, -⟩
  · exact State.moved_proc_ne (hheld.tree q hq)
  · show Function.update s.proc q (some pr) q ≠ none
    rw [Function.update_self]
    nofun

theorem Inv.unwind (h : Inv m s) (hp : s.proc p = some pr) (hu : Unwind p pr s.toWorld pr' w) :
    Inv m (s.moved p pr' w) := by
  have hok := h.ok p pr hp
  refine ⟨State.moved_ok h.ok (hu.ok hok), State.moved_proc_ne h.master, fun d hd => ?_⟩
  by_cases hpm : p = m
  · subst hpm
    have hd' := inScope_moved.mp hd
    have hh := hu.holding_of hok hd'
    rcases hu.holding hok hh with ⟨-, hflock⟩ | ⟨hnot, -⟩
    · exact (h.held d ⟨pr, hp, hh⟩).moved hflock
    · exact absurd hd' hnot
  · have hheld := h.held d ((inScope_moved_of_ne hpm).mp hd)
    obtain ⟨-, -, -, hflock | ⟨e, hf⟩⟩ := hu.foreign hok hpm
    · exact hheld.moved hflock
    · obtain ⟨hl, hmem, htree⟩ := hheld.closes hpm hf
      exact ⟨hl, hmem, fun q hq => State.moved_proc_ne (htree q hq)⟩

theorem Inv.die (h : Inv m s) (hp : s.proc p = some pr) :
    Inv m (s.moved p { pr with pc := .gone } s.toWorld) := by
  have hok := h.ok p pr hp
  refine ⟨State.moved_ok h.ok ⟨hok.owner, hok.outermost, nofun⟩,
    State.moved_proc_ne h.master, fun d hd => ?_⟩
  by_cases hpm : p = m
  · subst hpm
    exact absurd rfl (inScope_moved.mp hd).2.2
  · exact (h.held d ((inScope_moved_of_ne hpm).mp hd)).moved rfl

theorem Inv.reap (h : Inv m s) {e : Nat} {f : Lib.Flock Nat} (hp : s.proc p = some pr)
    (hpc : pr.pc = .gone) (hf : s.flock.Closes p e f) : Inv m { s with flock := f } := by
  refine ⟨h.ok, h.master, fun d hd => ?_⟩
  have hd' : InScope m s d := hd
  have hpm : p ≠ m := by
    rintro rfl
    exact (hd'.holding hp).2.2 hpc
  obtain ⟨hl, hmem, htree⟩ := (h.held d hd').closes hpm hf
  exact ⟨hl, hmem, htree⟩

theorem Inv.third (h : Inv m s) {op : Lib.Flock.Op Nat} {f : Lib.Flock Nat}
    (hp : s.proc p = none) (hop : s.flock.Step p op f) : Inv m { s with flock := f } := by
  refine ⟨h.ok, h.master, fun d hd => ?_⟩
  have hheld := h.held d (hd : InScope m s d)
  have hmp : m ≠ p := by
    rintro rfl
    exact h.master hp
  have hnot : p ∉ s.flock.holds d := fun hmem => hheld.tree p hmem hp
  obtain ⟨hmem, hl⟩ := hop.kept hheld.mem hmp hheld.locked hnot
  exact ⟨hl, hmem, fun q hq => hheld.tree q (hop.holds_subset hnot ⟨m, hheld.mem⟩ hq)⟩

theorem Step.inv {l : Label} (h : Step m s l t) (hi : Inv m s) : Inv m t := by
  cases h with
  | acquire pr d hp hpc hst hnew hfree => exact hi.acquire hpc d
  | enterRuntime pr c d start hp hpc hst =>
    exact hi.moved_master hp ((hi.ok m pr hp).enter hpc rfl (by nofun))
      (fun _ hd => hd.of_enter (by nofun)) rfl
  | enterLogging pr c start rest workers hp hpc hst =>
    exact hi.moved_master hp ((hi.ok m pr hp).enter hpc rfl (by nofun))
      (fun _ hd => hd.of_enter (by nofun)) rfl
  | enterFork pr owner rest hp hpc hst =>
    exact hi.moved_master hp ((hi.ok m pr hp).enter hpc rfl (by nofun))
      (fun _ hd => hd.of_enter (by nofun)) rfl
  | work pr files events writer hp hpc =>
    have hok := hi.ok m pr hp
    exact hi.moved_master hp ⟨hok.owner, hok.outermost, hok.removing⟩ (fun _ hd => hd) rfl
  | fork p c pr hp hpc hc hnew => exact hi.fork hp hpc hc
  | unwind p pr pr' w hp hu => exact hi.unwind hp hu
  | die p pr hp => exact hi.die hp
  | reap p d pr f hp hpc hf => exact hi.reap hp hpc hf
  | third p op f hp hop hc => exact hi.third hp hop
  | files files => exact ⟨hi.ok, hi.master, fun d hd => ⟨(hi.held d hd).locked,
      (hi.held d hd).mem, (hi.held d hd).tree⟩⟩

/-! ## Forked children do no harm -/

theorem Step.frame (h : Step m s (.unwind p) t) (hi : Inv m s) (hne : p ≠ m) :
    t.files = s.files ∧ t.log = s.log ∧ t.writer? = s.writer? := by
  cases h with
  | unwind _ pr pr' w hp hu =>
    obtain ⟨hwriter, hfiles, hlog, -⟩ := hu.foreign (hi.ok p pr hp) hne
    refine ⟨hfiles, hlog, funext fun q => ?_⟩
    show (Function.update s.proc p (some pr') q).map Proc.writer = (s.proc q).map Proc.writer
    by_cases hqp : q = p
    · rw [hqp, Function.update_self, hp]
      exact congrArg some hwriter
    · rw [Function.update_of_ne hqp]

/-- The step by which the master leaves its lock scope: its death, or the explicit unlock. -/
theorem Step.released {l : Label} (h : Step m s l t) (hi : Inv m s) (hd : InScope m s d)
    (hnot : ¬ InScope m t d) : l = .die m ∨ t.flock.locked = none := by
  have hne : ∀ {p : Nat} {pr : Proc} {w : World}, t = s.moved p pr w → p = m := by
    rintro p pr w rfl
    by_contra hpm
    exact hnot ((inScope_moved_of_ne hpm).mpr hd)
  cases h with
  | acquire pr d' hp hpc hst hnew hfree =>
    obtain ⟨c, hc⟩ := (hd.holding hp).1
    rw [hst] at hc
    cases hc
  | enterRuntime pr c e start hp hpc hst =>
    exact absurd (inScope_moved.mpr (hd.holding hp).enter) hnot
  | enterLogging pr c start rest workers hp hpc hst =>
    exact absurd (inScope_moved.mpr (hd.holding hp).enter) hnot
  | enterFork pr owner rest hp hpc hst =>
    exact absurd (inScope_moved.mpr (hd.holding hp).enter) hnot
  | work pr files events writer hp hpc =>
    have hh := hd.holding hp
    exact absurd (inScope_moved.mpr (show (pr.withWriter writer).Holding d from hh)) hnot
  | fork p c pr hp hpc hc hnew =>
    cases hne rfl
    exact absurd hc hi.master
  | unwind p pr pr' w hp hu =>
    cases hne rfl
    rcases hu.holding (hi.ok m pr hp) (hd.holding hp) with ⟨hh, -⟩ | ⟨-, hflock⟩
    · exact absurd (inScope_moved.mpr hh) hnot
    · have hfree := Lib.Flock.unlocked_self (hi.held d hd).locked
      exact .inr ((congrArg Lib.Flock.locked hflock).trans hfree)
  | die p pr hp =>
    cases hne rfl
    exact .inl rfl
  | reap => exact absurd hd hnot
  | third => exact absurd hd hnot
  | files => exact absurd hd hnot

theorem Step.third_lock {e : Nat} (h : Step m s (.third p (.lock e)) t) :
    s.flock.locked = none := by
  cases h with
  | third _ _ f hp hop hc =>
    cases hop with
    | lock _ hmem hfree => exact hfree

/-- **Forked children never harm the scopes of their master.** -/
theorem harmless (r : Run (Step m)) (h0 : Init m (r.state 0)) : Harmless m r := by
  have hinv : ∀ i, i ≤ r.length → Inv m (r.state i) :=
    r.invariant h0.inv fun _ _ _ h hi => h.inv hi
  refine ⟨?_, ?_, ?_, ?_⟩
  · intro i hi p hne hl
    exact (hl ▸ r.step_ok i hi).frame (hinv i hi.le) hne
  · intro i hi d hd
    exact ((hinv i hi).held d hd).locked
  · intro i hi d hd p e hl
    have hlock : (r.state i).flock.locked = none := by
      have hs := r.step_ok i hi
      rw [hl] at hs
      exact hs.third_lock
    rw [((hinv i hi.le).held d hd).locked] at hlock
    cases hlock
  · intro i hi d hd hnot
    exact (r.step_ok i hi).released (hinv i hi.le) hd hnot

/-! ## A run -/

/-- The master 1 forks in the innermost scope. The child 2 leaves that scope and keeps its
descriptor; the master stops, and the process 3 takes the lock. -/
def childLeaves : Run (Step 1) :=
  let files : Files :=
    { runtime := .absent, token := none, shutdown := .absent, reload := .absent
      control := .absent, observations := fun _ => .absent, pid := none }
  let start : Start := ⟨⟨1, 0⟩, "a", "alpha", []⟩
  let r := Run.start (Step 1)
    { flock := ⟨none, fun _ => ∅⟩, files := files, log := []
      proc := fun p => if p = 1 then some ⟨[], .body, false⟩ else none } .files
  let r := r.snoc (.acquire _ _ 0 rfl rfl rfl rfl rfl)
  let r := r.snoc (.enterRuntime _ _ 1 0 start rfl rfl rfl)
  let r := r.snoc (.enterLogging _ _ 1 start _ 1 rfl rfl rfl)
  let r := r.snoc (.enterFork _ _ 1 _ rfl rfl rfl)
  let r := r.snoc (.fork _ 1 2 _ rfl rfl rfl fun d h => by
    replace h := Lib.Flock.mem_opened.mp h
    split at h <;> cases h)
  let r := r.snoc (.unwind _ 2 _ _ _ rfl (.leave _ _ _ _ (.systemExit (.int 0)) rfl rfl))
  let r := r.snoc (.unwind _ 2 _ _ _ rfl (.reopenNot _ _ 1 _ rfl rfl (by decide)))
  let r := r.snoc (.unwind _ 1 _ _ _ rfl (.leave _ _ _ _ .returned rfl rfl))
  let r := r.snoc (.unwind _ 1 _ _ _ rfl (.reopen _ _ 1 _ true rfl rfl rfl))
  let r := r.snoc (.unwind _ 1 _ _ _ rfl (.leave _ _ _ _ .returned rfl rfl))
  let r := r.snoc (.unwind _ 1 _ _ _ rfl (.stopped _ _ 1 _ [] rfl rfl rfl rfl))
  let r := r.snoc (.unwind _ 1 _ _ _ rfl (.close _ _ 1 _ rfl rfl rfl))
  let r := r.snoc (.unwind _ 1 _ _ _ rfl (.leave _ _ _ _ .returned rfl rfl))
  let r := r.snoc (.unwind _ 1 _ _ _ rfl (.cleanOther _ _ 1 start _ rfl rfl rfl (by decide)))
  let r := r.snoc (.unwind _ 1 _ _ _ rfl (.remove _ _ 1 start _ .token [] rfl rfl))
  let r := r.snoc (.unwind _ 1 _ _ _ rfl (.removed _ _ 1 start _ [] rfl rfl))
  let r := r.snoc (.unwind _ 1 _ _ _ rfl (.leave _ _ _ _ .returned rfl rfl))
  let r := r.snoc (.unwind _ 1 _ _ _ rfl (.release _ _ 1 0 _ rfl rfl rfl))
  have hnew : (r.state r.length).flock.holds 1 = ∅ :=
    Set.eq_empty_iff_forall_notMem.mpr fun q hq => Or.elim hq id And.right
  let r := r.snoc (.third _ 3 (.open_ 1) _ rfl (.open_ _ 3 1 hnew) nofun)
  r.snoc (.third _ 3 (.lock 1) _ rfl (.lock _ 3 1 rfl rfl) nofun)

theorem childLeaves_init : Init 1 (childLeaves.state 0) :=
  ⟨rfl, fun _ hp => if_neg hp⟩

/-- The child still has the old description open when the lock belongs to the new one. -/
theorem harmless_childLeaves :
    2 ∈ (childLeaves.state 20).flock.holds 0 ∧ (childLeaves.state 20).flock.locked = some 1 ∧
      Harmless 1 childLeaves :=
  ⟨Or.inr ⟨rfl, rfl⟩, rfl, harmless childLeaves childLeaves_init⟩

end LclFastapi.Runtime.Scopes
