import LclFastapi.Lib.ExitStack

/-!
# The controller's writer around native forks (`runtime/controller_writer.py`,
`controller_logging` and `controller_fork` of `runtime/controller.py`)

`ControllerWriter` and the two scopes around it in the master, as a program with a state and
exceptions.

* `Master` is everything a process manager can do inside of `controller_logging`: it ticks, emits
  events and forks workers, goes on after an exception or not, and returns or raises.
* `Outside` says what the calls into the native library, the operating system and the files do. Any
  of them may raise whenever it is called. A scope of the native library that does not start holds
  nothing, and one that is left, by whatever way, holds nothing any more.
* `forks` is history: whether a native logger runtime was active at each fork.
* A child leaves the scopes by the same code; `Scopes.lean` has its side.

**`no_writer_in_fork`**: no fork finds an active logger runtime, and none is left in the end.
-/

namespace LclFastapi.Runtime.ControllerWriter

open Lib.Proc (final attempt Keeps bind_eq_ok bind_eq_error final_bind_ok final_bind_error
  final_eq_ok final_eq_error final_get_bind final_modify_bind final_tryFinally tryCatch_ok
  tryCatch_error)

/-- The calls that may raise. -/
inductive Op where
  /-- `FileVerboseControl(...)`. -/
  | file_control
  /-- `asyncio.run(controller_config(path))`. -/
  | controller_config
  /-- `asyncio.Runner()`. -/
  | new_runner
  /-- The start of `use_logger_handler`, in the runner. -/
  | open_logger
  /-- `install_service_formatters` and `install_verbose_output`. -/
  | install
  /-- The end of `use_logger_handler`. -/
  | close_logger
  /-- `runner.close()`. -/
  | close_runner
  /-- `write_events` and `write_records`, in the runner. -/
  | write
  /-- `background.read` and `expired`, and whether there are events. -/
  | background_events
  /-- The loop over `terminate_background_process`. -/
  | terminate
  /-- Whether the deadline has come. -/
  | due
  /-- `control.refresh_warning()`, and whether there is one. -/
  | refresh_warning
  /-- `live_workers(...)`. -/
  | live_workers
  /-- `native_spawn()`. -/
  | spawn_worker

/-- The native library, the operating system and the files, with a state of their own. -/
structure Outside (ε σ : Type) where
  /-- What an operation does, with its answer. -/
  run : Op → σ → Except ε Bool × σ
  /-- `isinstance(error, SystemExit) and error.code in (None, 0)`. -/
  clean : ε → Bool

/-- What is raised. -/
inductive Exc (ε : Type) where
  | outside (e : ε)
  /-- `RuntimeError("controller logger is not active")`. -/
  | notActive

/-- The state of the master. -/
structure World (σ : Type) where
  outside : σ
  /-- `self.runner is not None`. -/
  runner : Bool
  /-- Whether `use_logger_handler` is on `self.stack`. -/
  stack : Bool
  /-- The previous controls on `self.control_stack`, the last first. -/
  control_stack : List (Option Nat)
  /-- Whether a native logger runtime is active. -/
  logger : Bool
  /-- `control.active_control`. -/
  active_control : Option Nat
  /-- `CONTROLLER.get() is not None`. -/
  controller : Bool
  /-- Whether a logger runtime was active, fork by fork. -/
  forks : List Bool

/-- Programs of the master, with a state and exceptions. -/
abbrev M (ε σ : Type) := EStateM (Exc ε) (World σ)

variable {ε σ : Type} (x : Outside ε σ)

/-- A call with an answer; what happens outside is kept where it raises too. -/
def ask (op : Op) : M ε σ Bool := do
  let w ← get
  modify fun w' => { w' with outside := (x.run op w.outside).2 }
  match (x.run op w.outside).1 with
  | .ok answer => return answer
  | .error e => throw (.outside e)

/-- A call without one. -/
def call (op : Op) : M ε σ Unit := do
  let _ ← ask x op
  return ()

/-! ## The writer -/

/-- `self.stack.aclose()`. -/
def aclose : M ε σ Unit := do
  let w ← get
  if w.stack then do
    modify fun w => { w with stack := false }
    tryFinally (call x .close_logger) (modify fun w => { w with logger := false })
  else pure ()

/-- `self.control_stack.close()`. -/
def World.closeControl (w : World σ) : World σ :=
  { w with
    control_stack := []
    active_control := w.control_stack.getLast?.getD w.active_control }

/-- `ControllerWriter.close`: without a runner there is nothing to do. -/
def close : M ε σ Unit := do
  let w ← get
  modify fun w => { w with runner := false }
  if w.runner then
    tryFinally (aclose x) do
      call x .close_runner
      modify World.closeControl
  else pure ()

/-- The `try` of `open`. -/
def start (control : Nat) : M ε σ Unit := do
  modify fun w => { w with
    control_stack := w.active_control :: w.control_stack
    active_control := some control }
  call x .open_logger
  modify fun w => { w with stack := true, logger := true }
  call x .install

/-- `open`; the writer has the control `control`. -/
def openWriter (control : Nat) : M ε σ Unit := do
  call x .new_runner
  modify fun w => { w with runner := true }
  tryCatch (start x control) fun e => do
    close x
    throw e

/-- `emit` and `emit_records`. -/
def emit : M ε σ Unit := do
  let w ← get
  if w.runner then call x .write else throw .notActive

/-! ## The scopes -/

/-- The `background_tick` of the controller: what the journals and the deadlines give is logged, and
the expired processes are terminated whether it is or not. -/
def background_tick : M ε σ Unit := do
  let events ← ask x .background_events
  tryFinally (if events then emit x else pure ()) (call x .terminate)

/-- The `if self.writer.control is not None` of `tick`. -/
def warn : M ε σ Unit := do
  if ← ask x .refresh_warning then emit x else pure ()

/-- `tick`, past its deadline. -/
def observe : M ε σ Unit := do
  warn x
  call x .live_workers
  emit x

/-- `tick`; the final one of `controller_logging` is forced. -/
def tick (force : Bool) : M ε σ Unit := do
  background_tick x
  let due ← ask x .due
  if force || due then observe x else pure ()

/-- `native_spawn()` in the master. -/
def native_spawn : M ε σ Unit := do
  modify fun w => { w with forks := w.forks ++ [w.logger] }
  call x .spawn_worker

/-- `with controller_fork(): native_spawn()`. -/
def controller_fork (control : Nat) : M ε σ Unit := do
  let w ← get
  if w.controller then do
    close x
    tryFinally (native_spawn x) (openWriter x control)
  else native_spawn x

/-- What the process manager does. -/
inductive Master (ε : Type) where
  /-- `controller_tick`. -/
  | tick (next : Option (Exc ε) → Master ε)
  /-- `controller_background_tick`. -/
  | background_tick (next : Option (Exc ε) → Master ε)
  /-- `controller_event`. -/
  | event (next : Option (Exc ε) → Master ε)
  /-- `spawn_worker` of `run_linux`. -/
  | spawn (next : Option (Exc ε) → Master ε)
  | ret
  | raise (e : Exc ε)

/-- A call of the controller that raises is seen by the manager, which goes on or not. -/
def Master.run (control : Nat) : Master ε → M ε σ Unit
  | .tick next => do
    let raised ← attempt (ControllerWriter.tick x false)
    run control (next raised)
  | .background_tick next => do
    let raised ← attempt (ControllerWriter.background_tick x)
    run control (next raised)
  | .event next => do
    let raised ← attempt (emit x)
    run control (next raised)
  | .spawn next => do
    let raised ← attempt (controller_fork x control)
    run control (next raised)
  | .ret => pure ()
  | .raise e => throw e

/-- The exception is `SystemExit` without an error code. -/
def Exc.clean : Exc ε → Bool
  | .outside e => x.clean e
  | .notActive => false

/-- The `if` in the `except` of `controller_logging`. -/
def failed (e : Exc ε) : M ε σ Unit := do
  let w ← get
  if w.runner && !e.clean x then emit x else pure ()

/-- The `try` in the `finally` of `controller_logging`. -/
def stopped : M ε σ Unit := do
  let w ← get
  if w.runner then do
    tick x true
    emit x
  else pure ()

/-- `controller_logging`, with the control of its writer, around a process manager. -/
def controller_logging (control : Nat) (master : Master ε) : M ε σ Unit := do
  call x .file_control
  call x .controller_config
  openWriter x control
  let w ← get
  modify fun w => { w with controller := true }
  tryFinally
    (tryCatch (do emit x; master.run x control) fun e => do failed x e; throw e)
    (tryFinally (stopped x) do
      modify fun v => { v with controller := w.controller }
      close x)

/-! ## What is open -/

variable {x}
variable {control : Nat} {w : World σ} {op : Op} {c : Bool}

/-- A logger runtime is active only while the writer has a runner, and no fork found one; `c` is
whether `CONTROLLER` has a value. -/
structure Inv (c : Bool) (w : World σ) : Prop where
  logger : w.logger = true → w.stack = true
  stack : w.stack = true → w.runner = true
  forks : ∀ active ∈ w.forks, active = false
  controller : w.controller = c

/-- Nothing is open. -/
structure Closed (c : Bool) (w : World σ) : Prop where
  runner : w.runner = false
  stack : w.stack = false
  logger : w.logger = false
  forks : ∀ active ∈ w.forks, active = false
  controller : w.controller = c

theorem Closed.inv (h : Closed c w) : Inv c w where
  logger hl := absurd (h.logger.symm.trans hl) Bool.false_ne_true
  stack hs := absurd (h.stack.symm.trans hs) Bool.false_ne_true
  forks := h.forks
  controller := h.controller

theorem Inv.logger_eq (h : Inv c w) (hs : w.stack = false) : w.logger = false := by
  cases hl : w.logger with
  | false => rfl
  | true => exact absurd (hs.symm.trans (h.logger hl)) Bool.false_ne_true

theorem Inv.closed (h : Inv c w) (hr : w.runner = false) : Closed c w := by
  have hs : w.stack = false := by
    cases hs : w.stack with
    | false => rfl
    | true => exact absurd (hr.symm.trans (h.stack hs)) Bool.false_ne_true
  exact ⟨hr, hs, h.logger_eq hs, h.forks, h.controller⟩

/-! ## The operations -/

theorem ask_keeps {I : World σ → Prop} (h : ∀ outside w, I w → I { w with outside }) :
    Keeps I (ask x op) := by
  refine Keeps.get_bind fun w hw => ?_
  have hset := h (x.run op w.outside).2 w hw
  rw [final_modify_bind]
  cases (x.run op w.outside).1 with
  | ok answer => exact hset
  | error e => exact hset

theorem call_keeps {I : World σ → Prop} (h : ∀ outside w, I w → I { w with outside }) :
    Keeps I (call x op) := .bind (ask_keeps h) fun _ => .pure

/-- What a call changes. -/
theorem final_call (op : Op) (w : World σ) : ∃ outside, final (call x op) w = { w with outside } :=
  call_keeps (I := fun v => ∃ outside, v = { w with outside })
    (fun outside _ ⟨_, hv⟩ => ⟨outside, by rw [hv]⟩) w ⟨w.outside, rfl⟩

theorem Inv.outside (outside : σ) (w : World σ) (h : Inv c w) : Inv c { w with outside } :=
  { h with }

theorem Closed.outside (outside : σ) (w : World σ) (h : Closed c w) :
    Closed c { w with outside } := { h with }

/-- **The writer is drained**, however the teardown ends. -/
theorem close_closed (h : Inv c w) : Closed c (final (close x) w) := by
  unfold close
  rw [final_get_bind, final_modify_bind]
  cases hr : w.runner with
  | false => exact { h.closed hr with runner := rfl }
  | true =>
    have hdrained : Closed c (final (aclose x) { w with runner := false }) := by
      unfold aclose
      rw [final_get_bind]
      cases hs : w.stack with
      | false => exact ⟨rfl, rfl, h.logger_eq hs, h.forks, h.controller⟩
      | true =>
        obtain ⟨outside, hcall⟩ := final_call (x := x) .close_logger
          { w with runner := false, stack := false }
        rw [if_pos rfl, final_modify_bind, final_tryFinally, hcall]
        exact ⟨rfl, rfl, rfl, h.forks, h.controller⟩
    have hkeeps : Keeps (Closed c) (do call x .close_runner; modify World.closeControl) :=
      .bind (call_keeps Closed.outside) fun _ => .modify fun _ hw => { hw with }
    rw [if_pos rfl, final_tryFinally]
    exact hkeeps _ hdrained

theorem close_keeps : Keeps (Inv c) (close x) := fun _ hw => (close_closed hw).inv

theorem start_keeps : Keeps (fun w => Inv c w ∧ w.runner = true) (start x control) :=
  have hcall (op : Op) : Keeps (fun w => Inv c w ∧ w.runner = true) (call x op) :=
    call_keeps fun _ _ hw => ⟨hw.1.outside _ _, hw.2⟩
  .bind (.modify fun _ hw => ⟨{ hw.1 with }, hw.2⟩) fun _ =>
    .bind (hcall _) fun _ =>
      .bind (.modify fun _ hw =>
          ⟨{ hw.1 with logger := fun _ => rfl, stack := fun _ => hw.2 }, hw.2⟩) fun _ =>
        hcall _

/-- What is left open is the writer's, and a start that fails leaves nothing. -/
theorem openWriter_spec (x : Outside ε σ) (control : Nat) (h : Closed c w) :
    (∀ u w', openWriter x control w = .ok u w' → Inv c w') ∧
    ∀ e w', openWriter x control w = .error e w' → Closed c w' := by
  have hopen : Keeps (Closed c) (call x .new_runner) := call_keeps Closed.outside
  have hstart (w' : World σ) (h' : Closed c w') :
      Inv c (final (start x control) { w' with runner := true }) :=
    (start_keeps { w' with runner := true } ⟨{ h'.inv with stack := fun _ => rfl }, rfl⟩).1
  constructor
  · intro u w' hr
    obtain ⟨_, w₁, h₁, hr⟩ := bind_eq_ok hr
    have hw₁ : Closed c w₁ := final_eq_ok h₁ ▸ hopen w h
    have hkeeps : Inv c (final (tryCatch (start x control) fun e => do close x; throw e)
        { w₁ with runner := true }) :=
      Keeps.handled (hstart w₁ hw₁) fun _ => .bind close_keeps fun _ => .throw
    exact final_eq_ok hr ▸ hkeeps
  · intro e w' hr
    rcases bind_eq_error hr with hr | ⟨_, w₁, h₁, hr⟩
    · exact final_eq_error hr ▸ hopen w h
    have hw₁ : Closed c w₁ := final_eq_ok h₁ ▸ hopen w h
    have hr : tryCatch (start x control) (fun e => do close x; throw e)
      { w₁ with runner := true } = .error e w' := hr
    have hi := hstart w₁ hw₁
    cases hs : start x control { w₁ with runner := true } with
    | ok u w₂ =>
      rw [tryCatch_ok _ hs] at hr
      cases hr
    | error e' w₂ =>
      rw [tryCatch_error _ hs] at hr
      rw [final_eq_error hs] at hi
      have hc : Closed c (final (do close x; throw e' : M ε σ Unit) w₂) :=
        Keeps.after (close_closed hi) fun _ => .throw
      exact final_eq_error hr ▸ hc

theorem openWriter_inv (h : Closed c w) : Inv c (final (openWriter x control) w) := by
  obtain ⟨hok, herror⟩ := openWriter_spec x control h
  cases hr : openWriter x control w with
  | ok u w' => exact final_eq_ok hr ▸ hok u w' hr
  | error e w' => exact final_eq_error hr ▸ (herror e w' hr).inv

theorem emit_keeps : Keeps (Inv c) (emit x) := by
  refine Keeps.get_bind fun w hw => ?_
  cases w.runner with
  | true => exact call_keeps Inv.outside w hw
  | false => exact hw

theorem background_tick_keeps : Keeps (Inv c) (background_tick x) := by
  refine .bind (ask_keeps Inv.outside) fun events => .tryFinally ?_ (call_keeps Inv.outside)
  cases events with
  | true => exact emit_keeps
  | false => exact .pure

theorem warn_keeps : Keeps (Inv c) (warn x) := by
  refine .bind (ask_keeps Inv.outside) fun warning => ?_
  cases warning with
  | true => exact emit_keeps
  | false => exact .pure

theorem observe_keeps : Keeps (Inv c) (observe x) :=
  .bind warn_keeps fun _ => .bind (call_keeps Inv.outside) fun _ => emit_keeps

theorem tick_keeps (force : Bool) : Keeps (Inv c) (tick x force) := by
  refine .bind background_tick_keeps fun _ => .bind (ask_keeps Inv.outside) fun due => ?_
  cases force || due with
  | true => exact observe_keeps
  | false => exact .pure

/-- A fork from a closed writer finds nothing. -/
theorem native_spawn_keeps : Keeps (Closed c) (native_spawn x) := by
  refine .bind (.modify fun w hw => { hw with forks := fun active ha => ?_ }) fun _ =>
    call_keeps Closed.outside
  rcases List.mem_append.mp ha with ha | ha
  · exact hw.forks active ha
  · exact (List.mem_singleton.mp ha).trans hw.logger

theorem controller_fork_keeps : Keeps (Inv true) (controller_fork x control) := by
  refine Keeps.get_bind fun w hw => ?_
  rw [if_pos hw.controller]
  have hclosed := close_closed (x := x) hw
  cases hr : close x w with
  | error e w' =>
    rw [final_bind_error _ hr, ← final_eq_error hr]
    exact hclosed.inv
  | ok u w' =>
    rw [final_eq_ok hr] at hclosed
    rw [final_bind_ok _ hr, final_tryFinally]
    exact openWriter_inv (native_spawn_keeps w' hclosed)

theorem Master.run_keeps (master : Master ε) : Keeps (Inv true) (master.run x control) := by
  induction master with
  | tick next ih => exact .bind (.attempt (tick_keeps false)) fun raised => ih raised
  | background_tick next ih => exact .bind (.attempt background_tick_keeps) fun raised => ih raised
  | event next ih => exact .bind (.attempt emit_keeps) fun raised => ih raised
  | spawn next ih => exact .bind (.attempt controller_fork_keeps) fun raised => ih raised
  | ret => exact .pure
  | raise e => exact .throw

theorem failed_keeps (e : Exc ε) : Keeps (Inv c) (failed x e) := by
  refine Keeps.get_bind fun w hw => ?_
  cases w.runner && !e.clean x with
  | true => exact emit_keeps w hw
  | false => exact hw

theorem stopped_keeps : Keeps (Inv c) (stopped x) := by
  refine Keeps.get_bind fun w hw => ?_
  cases w.runner with
  | true => exact Keeps.bind (tick_keeps true) (fun _ => emit_keeps) w hw
  | false => exact hw

/-! ## The whole scope -/

/-- **No fork has a writer.** However the master ends, and whatever fails on the way, a logger
runtime was active at none of its forks, and in the end nothing is open. -/
theorem no_writer_in_fork (x : Outside ε σ) (control : Nat) (master : Master ε) (c : Bool)
    (w : World σ) (h : Closed c w) : Closed c (final (controller_logging x control master) w) := by
  have hkeeps (op : Op) : Keeps (Closed c) (call x op) := call_keeps Closed.outside
  unfold controller_logging
  cases h₁ : call x .file_control w with
  | error e w₁ => rw [final_bind_error _ h₁]; exact final_eq_error h₁ ▸ hkeeps _ w h
  | ok _ w₁ =>
  have hw₁ : Closed c w₁ := final_eq_ok h₁ ▸ hkeeps _ w h
  rw [final_bind_ok _ h₁]
  cases h₂ : call x .controller_config w₁ with
  | error e w₂ => rw [final_bind_error _ h₂]; exact final_eq_error h₂ ▸ hkeeps _ w₁ hw₁
  | ok _ w₂ =>
  have hw₂ : Closed c w₂ := final_eq_ok h₂ ▸ hkeeps _ w₁ hw₁
  rw [final_bind_ok _ h₂]
  cases h₃ : openWriter x control w₂ with
  | error e w₃ => rw [final_bind_error _ h₃]; exact (openWriter_spec x control hw₂).2 e w₃ h₃
  | ok _ w₃ =>
  have hw₃ : Inv c w₃ := (openWriter_spec x control hw₂).1 _ w₃ h₃
  rw [final_bind_ok _ h₃, final_get_bind, final_modify_bind, final_tryFinally, final_tryFinally,
    final_modify_bind]
  have hbody : Keeps (Inv true) (tryCatch (do emit x; master.run x control) fun e => do
      failed x e; throw e) := fun v hv =>
    Keeps.handled (Keeps.bind emit_keeps (fun _ => master.run_keeps) v hv) fun e =>
      .bind (failed_keeps e) fun _ => .throw
  have hend := stopped_keeps (x := x) _ (hbody { w₃ with controller := true }
    { hw₃ with controller := rfl })
  exact close_closed { hend with controller := hw₃.controller }

/-- The first reopening fails; a later fork reopens. -/
def reopening : Outside Unit Nat where
  run
    | .open_logger, n => (if n = 1 then .error () else .ok true, n + 1)
    | .due, n => (.ok false, n)
    | _, n => (.ok true, n)
  clean _ := false

def idle : World Nat := ⟨0, false, false, [], false, none, false, []⟩

theorem no_writer_in_fork_reopening :
    (final (controller_logging reopening 7
      (.spawn fun _ => .event fun _ => .spawn fun _ => .tick fun _ => .ret)) idle).forks =
        [false, false] ∧
    Closed false (final (controller_logging reopening 7
      (.spawn fun _ => .event fun _ => .spawn fun _ => .tick fun _ => .ret)) idle) :=
  ⟨by decide +kernel, no_writer_in_fork reopening 7 _ false idle
    ⟨rfl, rfl, rfl, fun _ h => absurd h List.not_mem_nil, rfl⟩⟩

end LclFastapi.Runtime.ControllerWriter
