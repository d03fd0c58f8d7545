import LclFastapi.Lib.ExitStack
import LclFastapi.Runtime.State

/-!
# The scope of a worker (`worker_runtime` of `runtime/worker.py`)

`worker_runtime` as a context manager: it acquires a lease, publishes the first observation, starts
the watcher of an Uvicorn worker, and undoes this in its `finally`. Any of its calls may raise
whenever it is called.

* `failed` is history: the calls that have raised. A missing entry of the record of the service is a
  call that raises.
* `release` and `acquire` are those of `Lease.lean`; here a lease is only held or not. An
  acquisition that raises holds nothing, a release that raises keeps the lease (it has not come to
  its `unlink`), and a publication that raises leaves the file as it is.
* The watcher ends once `finished` is set, so that joining it returns. A thread that has not been
  started cannot be joined.
* `Body` is what runs in the scope. It may publish, and so may others write or remove the
  observation meanwhile.

**`worker_scope`**: the body finds everything in place, the watcher never outlives the scope, and
the lease and the observation are gone afterwards, unless one of `Op.leaks` has raised; in that case
the lease is left.
-/

namespace LclFastapi.Runtime.WorkerScope

open Lib (Identity)
open Lib.ExitStack (ContextManager)
open Lib.Proc (Meets final)

/-! ## The program -/

/-- The calls of `worker_runtime` that may raise. -/
inductive Op where
  /-- `read_state(directory / "runtime.json")`. -/
  | read_service
  | acquire
  | process_identity
  /-- An entry of the record of the service. -/
  | item (key : String)
  | read_token
  /-- `atomic_write` in `publish`. -/
  | publish
  | uvicorn_server
  /-- `watcher.start()`. -/
  | start
  /-- `read_state(path)` in the `finally`. -/
  | read_observation
  | unlink
  | release
  deriving DecidableEq

/-- The thread that waits for a shutdown marker. -/
inductive Watcher where
  /-- `watcher is None`. -/
  | none
  | created
  | running
  | joined
  deriving DecidableEq

/-- What is raised. -/
inductive Exc (ε : Type) where
  | outside (e : ε)
  | KeyError (key : String)
  | RuntimeError (text : String)

/-- The state of the scope, with its history. -/
structure World (σ : Type) where
  outside : σ
  /-- The lease is held. -/
  leased : Bool
  watcher : Watcher
  /-- The file `{pid}.json` in the directory of the worker observations. -/
  observation : Stored
  /-- Whether the lease has ever been acquired. -/
  acquired : Bool
  failed : List Op

/-- What the calls do outside, and what they answer. -/
structure Outside (ε σ : Type) where
  run : Op → σ → Except ε Unit × σ
  /-- What `runtime.json` holds when it is read. -/
  service : Record
  /-- Whether its process is live then. -/
  is_live : Bool
  worker_id : Nat
  identity : Identity
  control_token : String
  /-- `time.time()` before the first publication. -/
  time : ℚ

/-- `WorkerRuntime`, without the settings and the directory. -/
structure WorkerRuntime where
  worker_id : Nat
  service : Record
  identity : Identity
  control_token : String

/-- Programs of the worker. -/
abbrev M (ε σ : Type) := EStateM (Exc ε) (World σ)

variable {ε σ : Type} (x : Outside ε σ)

/-- The operation has raised. -/
def fail {α : Type} (op : Op) (e : Exc ε) : M ε σ α := do
  modify fun w => { w with failed := w.failed ++ [op] }
  throw e

/-- A call, which may raise. -/
def call (op : Op) : M ε σ Unit := do
  let w ← get
  modify fun w' => { w' with outside := (x.run op w.outside).2 }
  match (x.run op w.outside).1 with
  | .ok _ => pure ()
  | .error e => fail op (.outside e)

/-- `service[key]`. -/
def item (key : String) : M ε σ Value :=
  match x.service.get key with
  | some value => pure value
  | none => fail (.item key) (.KeyError key)

/-- `WorkerRuntime.publish`. -/
def publish (log_files : Value) (observed_at : ℚ) (background_workers : Option Value) :
    M ε σ Unit := do
  let service_id ← item x "service_id"
  call x .publish
  modify fun w => { w with observation := .object (processIdentity x.identity ++
    [("service_id", service_id), ("snowflake_worker_id", .int x.worker_id),
      ("log_files", log_files), ("observed_at", .float observed_at)] ++
    (background_workers.map fun workers => ("background_workers", workers)).toList) }

/-- `WorkerLease.acquire(...)`. -/
def acquire : M ε σ Unit := do
  call x .acquire
  modify fun w => { w with leased := true, acquired := true }

/-- The part for Uvicorn. -/
def watch (runtime : Value) : M ε σ Unit :=
  if runtime.pyEq (.str "uvicorn") then do
    call x .uvicorn_server
    modify fun w => { w with watcher := .created }
    call x .start
    modify fun w => { w with watcher := .running }
  else pure ()

/-- The `try`, before the yield. -/
def prepare : M ε σ WorkerRuntime := do
  call x .read_token
  publish x (.compound "[]") x.time none
  let runtime ← item x "runtime"
  watch x runtime
  return ⟨x.worker_id, x.service, x.identity, x.control_token⟩

/-- `finished.set()` and `watcher.join()`. -/
def join : M ε σ Unit := do
  let w ← get
  match w.watcher with
  | .created => throw (.RuntimeError "cannot join thread before it is started")
  | .running => modify fun w => { w with watcher := .joined }
  | .none | .joined => pure ()

/-- The `if` of the `finally`, and `path.unlink(missing_ok=True)`. -/
def unlink (observation : Stored) (service_id : Value) : M ε σ Unit :=
  if (((readState observation).get "service_id").getD .null).pyEq service_id then do
    call x .unlink
    modify fun w => { w with observation := .absent }
  else pure ()

/-- `lease.release()`. -/
def release : M ε σ Unit := do
  call x .release
  modify fun w => { w with leased := false }

/-- The `finally`. -/
def cleanup : M ε σ Unit := do
  join
  call x .read_observation
  let w ← get
  let service_id ← item x "service_id"
  unlink x w.observation service_id
  release x

/-- `worker_runtime(...)`, split at its `yield`. -/
def worker_runtime : ContextManager (Exc ε) (World σ) WorkerRuntime where
  enter := do
    call x .read_service
    if x.is_live then do
      acquire x
      call x .process_identity
      let _ ← item x "worker_state_dir"
      tryCatch (prepare x) fun e => do
        cleanup x
        throw e
    else throw (.RuntimeError "no verified service master; start with lcl-fastapi serve")
  exit _ _ := do
    cleanup x
    return false

/-! ## What is left -/

/-- The calls after whose failure the `finally` is not reached, or does not reach its end. -/
def Op.leaks : Op → Bool
  | process_identity | start | read_observation | unlink | release => true
  | item key => key = "worker_state_dir" || key = "service_id"
  | _ => false

/-- What runs in the scope: it leaves the lease and the watcher alone, and makes none of the calls
of the scope's end. -/
structure Body (ε σ α : Type) where
  run : WorkerRuntime → M ε σ α
  frame : ∀ runtime w, (final (run runtime) w).leased = w.leased ∧
    (final (run runtime) w).watcher = w.watcher ∧
    (final (run runtime) w).acquired = w.acquired ∧
    ∀ op ∈ (final (run runtime) w).failed, op.leaks = true → op ∈ w.failed

/-- Before the scope. -/
structure Fresh (w : World σ) : Prop where
  leased : w.leased = false
  watcher : w.watcher = .none
  acquired : w.acquired = false
  failed : w.failed = []

/-- Whether the worker is one of Uvicorn. -/
def Outside.uvicorn : Bool :=
  (x.service.get "runtime").any fun runtime => runtime.pyEq (.str "uvicorn")

/-- What the body finds. -/
structure Ready (w : World σ) : Prop where
  leased : w.leased = true
  acquired : w.acquired = true
  observed : ∃ service_id, x.service.get "service_id" = some service_id ∧
    (readState w.observation).get "service_id" = some service_id
  watcher : w.watcher = if x.uvicorn then .running else .none
  failed : w.failed = []

/-- In the `try`: what the `finally` has to undo. -/
structure Held (w : World σ) : Prop where
  leased : w.leased = true
  acquired : w.acquired = true
  started : w.watcher = .created → Op.start ∈ w.failed
  leaks : ∀ op ∈ w.failed, op.leaks = true →
    w.watcher = .created ∨ x.service.get "service_id" = none

/-- After the scope. -/
structure Left (w : World σ) : Prop where
  watcher : w.watcher ≠ .running
  leased : w.leased = true ↔ ∃ op ∈ w.failed, op.leaks = true
  observation : w.acquired = true → w.leased = false → ∀ service_id,
    x.service.get "service_id" = some service_id → ¬ OfService service_id (readState w.observation)

variable {x} {op : Op} {key : String} {w : World σ}

/-! ## Calls -/

section Calls

variable {P E : World σ → Prop} {Q : Unit → World σ → Prop} {R : Value → World σ → Prop}

theorem call_meets (hok : ∀ w o, P w → Q ⟨⟩ { w with outside := o })
    (herror : ∀ w o, P w → E { w with outside := o, failed := w.failed ++ [op] }) :
    Meets P (call x op) Q E := by
  refine .get_bind fun w => .bind
    (Q := fun _ t => t = { w with outside := (x.run op w.outside).2 } ∧ P w)
    (.modify fun t ht => ⟨by rw [ht.1], ht.2⟩) fun _ => ?_
  split
  · exact .pure fun t ht => ht.1 ▸ hok w _ ht.2
  · exact .bind (Q := fun _ => E) (.modify fun t ht => ht.1 ▸ herror w _ ht.2) fun _ =>
      .throw fun _ h => h

theorem item_meets (hok : ∀ v, x.service.get key = some v → ∀ w, P w → R v w)
    (herror : x.service.get key = none → ∀ w, P w →
      E { w with failed := w.failed ++ [.item key] }) :
    Meets P (item x key) R E := by
  unfold item
  split
  · rename_i v hv
    exact .pure (hok v hv)
  · rename_i hv
    exact .bind (Q := fun _ => E) (.modify (herror hv)) fun _ => .throw fun _ h => h

end Calls

/-! ## The `finally` -/

/-- A lease that is still held where a call that leaks has raised. -/
theorem left_of_leaked (hleased : w.leased = true) (hwatcher : w.watcher ≠ .running)
    (hop : op ∈ w.failed) (hleaks : op.leaks = true) : Left x w where
  watcher := hwatcher
  leased := ⟨fun _ => ⟨op, hop, hleaks⟩, fun _ => hleased⟩
  observation _ hreleased := absurd (hleased.symm.trans hreleased) nofun

/-- With the watcher ended: the lease is to be released. -/
structure Joined (x : Outside ε σ) (w : World σ) : Prop where
  leased : w.leased = true
  watcher : w.watcher ≠ .running
  leaks : ∀ op ∈ w.failed, op.leaks = true → x.service.get "service_id" = none

theorem Joined.outside (h : Joined x w) (o : σ) : Joined x { w with outside := o } :=
  ⟨h.leased, h.watcher, h.leaks⟩

/-- A call of the end raises. -/
theorem Joined.left (h : Joined x w) (o : σ) (hop : op.leaks = true) :
    Left x { w with outside := o, failed := w.failed ++ [op] } :=
  left_of_leaked h.leased h.watcher (List.mem_append_right _ (List.mem_singleton_self op)) hop

theorem Held.joined (h : Held x w) (watcher : Watcher) (hcreated : w.watcher ≠ .created)
    (hwatcher : watcher ≠ .running) : Joined x { w with watcher } where
  leased := h.leased
  watcher := hwatcher
  leaks op hop hleaks := (h.leaks op hop hleaks).resolve_left hcreated

theorem join_meets : Meets (Held x) (join : M ε σ Unit) (fun _ => Joined x) (Left x) := by
  refine .get_bind fun w => ?_
  split
  · rename_i hw
    refine .throw fun t ⟨ht, h⟩ => ht ▸ left_of_leaked h.leased ?_ (h.started hw) rfl
    rw [hw]
    exact nofun
  · rename_i hw
    refine .modify fun t ⟨ht, h⟩ => ht ▸ h.joined .joined ?_ nofun
    rw [hw]
    exact nofun
  -- No watcher, or one that has been joined, stays as it is.
  · rename_i hw
    refine .pure fun t ⟨ht, h⟩ => ht ▸ h.joined w.watcher ?_ ?_ <;> rw [hw] <;> exact nofun
  · rename_i hw
    refine .pure fun t ⟨ht, h⟩ => ht ▸ h.joined w.watcher ?_ ?_ <;> rw [hw] <;> exact nofun

/-- **The `finally`**: everything is undone, or a call that leaks has raised. -/
theorem cleanup_meets : Meets (Held x) (cleanup x) (fun _ => Left x) (Left x) := by
  refine .bind join_meets fun _ => ?_
  refine .bind (Q := fun _ => Joined x) (call_meets (fun w o h => h.outside o)
    fun w o h => h.left o rfl) fun _ => .get_bind fun w => ?_
  refine .bind (Q := fun v t => t = w ∧ Joined x w ∧ x.service.get "service_id" = some v)
    (item_meets (fun v hv t ht => ⟨ht.1, ht.2, hv⟩) fun _ t ht => ht.1 ▸ ht.2.left _ rfl)
    fun service_id => ?_
  refine .bind (Q := fun _ t => Joined x t ∧ x.service.get "service_id" = some service_id ∧
      ¬ OfService service_id (readState t.observation)) ?_ fun _ => ?_
  · unfold unlink
    split
    · refine .bind (Q := fun _ t => Joined x t ∧ x.service.get "service_id" = some service_id)
        (call_meets (fun t o ht => ht.1 ▸ ⟨ht.2.1.outside o, ht.2.2⟩)
          fun t o ht => ht.1 ▸ ht.2.1.left _ rfl) fun _ => .modify fun t ⟨h, hid⟩ => ?_
      exact ⟨⟨h.leased, h.watcher, h.leaks⟩, hid, fun ⟨_, hsid, _⟩ => nomatch hsid⟩
    · rename_i hother
      refine .pure fun t ⟨ht, h, hid⟩ => ht ▸ ⟨h, hid, fun ⟨sid, hsid, heq⟩ => hother ?_⟩
      rw [hsid]
      exact heq
  · refine .bind (Q := fun _ t => Joined x t ∧ x.service.get "service_id" = some service_id ∧
        ¬ OfService service_id (readState t.observation))
      (call_meets (fun t o ht => ⟨ht.1.outside o, ht.2⟩) fun t o ht => ht.1.left o rfl)
      fun _ => .modify fun t ⟨h, hid, hgone⟩ => ⟨h.watcher, ?_, ?_⟩
    · refine ⟨nofun, fun ⟨op, hop, hleaks⟩ => ?_⟩
      exact absurd (hid.symm.trans (h.leaks op hop hleaks)) nofun
    · intro _ _ sid hsid
      rw [hid, Option.some.injEq] at hsid
      exact hsid ▸ hgone

/-! ## The start -/

/-- In the start, nothing has raised so far. -/
structure Acquired (w : World σ) : Prop where
  leased : w.leased = true
  acquired : w.acquired = true
  failed : w.failed = []

theorem Acquired.outside (h : Acquired w) (o : σ) : Acquired { w with outside := o } :=
  ⟨h.leased, h.acquired, h.failed⟩

/-- What a first failure leaves to the `finally`. -/
theorem Acquired.held (h : Acquired w) (o : σ) (hstart : w.watcher = .created → op = .start)
    (hleaks : op.leaks = true → w.watcher = .created ∨ x.service.get "service_id" = none) :
    Held x { w with outside := o, failed := w.failed ++ [op] } where
  leased := h.leased
  acquired := h.acquired
  started hw := List.mem_append_right _ (List.mem_singleton.mpr (hstart hw).symm)
  leaks op' hop' := by
    rw [h.failed, List.nil_append, List.mem_singleton] at hop'
    exact hop' ▸ hleaks

/-- A failure before the watcher is created. -/
theorem Acquired.unwatched (h : Acquired w) (hw : w.watcher = .none) (o : σ)
    (hleaks : op.leaks = true → x.service.get "service_id" = none) :
    Held x { w with outside := o, failed := w.failed ++ [op] } :=
  h.held o (fun hc => absurd (hw.symm.trans hc) nofun) fun hop => .inr (hleaks hop)

/-- The observation in the file is one of this start. -/
def Observed (x : Outside ε σ) (w : World σ) : Prop :=
  ∃ service_id, x.service.get "service_id" = some service_id ∧
    (readState w.observation).get "service_id" = some service_id

theorem publish_meets (log_files : Value) (observed_at : ℚ) (background : Option Value) :
    Meets (fun w => Acquired w ∧ w.watcher = .none)
      (publish x log_files observed_at background)
      (fun _ w => Acquired w ∧ w.watcher = .none ∧ Observed x w) (Held x) := by
  refine .bind (Q := fun v w => (Acquired w ∧ w.watcher = .none) ∧
      x.service.get "service_id" = some v) (item_meets (fun v hv w h => ⟨h, hv⟩)
      fun hmissing w h => h.1.unwatched h.2 w.outside fun _ => hmissing) fun v => ?_
  refine .bind (Q := fun _ w => (Acquired w ∧ w.watcher = .none) ∧
      x.service.get "service_id" = some v)
      (call_meets (fun w o h => ⟨⟨h.1.1.outside o, h.1.2⟩, h.2⟩)
        fun w o h => h.1.1.unwatched h.1.2 o nofun) fun _ => .modify fun w h => ?_
  refine ⟨⟨h.1.1.leased, h.1.1.acquired, h.1.1.failed⟩, h.1.2, v, h.2, ?_⟩
  simp [readState, processIdentity, Record.get, List.lookup_cons]

theorem watch_meets {runtime : Value} (hruntime : x.service.get "runtime" = some runtime) :
    Meets (fun w => Acquired w ∧ w.watcher = .none ∧ Observed x w) (watch x runtime)
      (fun _ => Ready x) (Held x) := by
  have huvicorn : x.uvicorn = runtime.pyEq (.str "uvicorn") := by
    unfold Outside.uvicorn
    rw [hruntime, Option.any_some]
  unfold watch
  split
  · rename_i hu
    refine .bind (Q := fun _ w => Acquired w ∧ w.watcher = .none ∧ Observed x w)
      (call_meets (fun w o h => ⟨h.1.outside o, h.2⟩)
        fun w o h => h.1.unwatched h.2.1 o nofun) fun _ => ?_
    refine .bind (Q := fun _ w => Acquired w ∧ w.watcher = .created ∧ Observed x w)
      (.modify fun w h => ⟨⟨h.1.leased, h.1.acquired, h.1.failed⟩, rfl, h.2.2⟩) fun _ => ?_
    refine .bind (Q := fun _ w => Acquired w ∧ Observed x w)
      (call_meets (fun w o h => ⟨h.1.outside o, h.2.2⟩) fun w o h => h.1.held o (fun _ => rfl)
        fun _ => .inl h.2.1) fun _ => .modify fun w h => ?_
    exact ⟨h.1.leased, h.1.acquired, h.2, by rw [huvicorn, if_pos hu], h.1.failed⟩
  · rename_i hu
    refine .pure fun w h => ⟨h.1.leased, h.1.acquired, h.2.2, ?_, h.1.failed⟩
    rw [huvicorn, if_neg hu]
    exact h.2.1

theorem prepare_meets : Meets (fun w => Acquired w ∧ w.watcher = .none) (prepare x)
    (fun _ => Ready x) (Held x) := by
  refine .bind (Q := fun _ w => Acquired w ∧ w.watcher = .none)
    (call_meets (fun w o h => ⟨h.1.outside o, h.2⟩)
      fun w o h => h.1.unwatched h.2 o nofun) fun _ => ?_
  refine .bind (publish_meets (.compound "[]") x.time none) fun _ => ?_
  refine .bind (Q := fun v w => (Acquired w ∧ w.watcher = .none ∧ Observed x w) ∧
      x.service.get "runtime" = some v) (item_meets (fun v hv w h => ⟨h, hv⟩)
      fun _ w h => h.1.unwatched h.2.1 w.outside nofun) fun runtime => ?_
  intro w ⟨h, hruntime⟩
  refine Meets.bind (watch_meets hruntime) (fun _ => ?_) w h
  exact .pure fun _ h => h

/-- Before the acquisition, and where it raises, nothing is held. -/
structure Unheld (w : World σ) : Prop where
  leased : w.leased = false
  watcher : w.watcher = .none
  acquired : w.acquired = false
  failed : ∀ op ∈ w.failed, op.leaks = false

theorem Unheld.left (h : Unheld w) : Left x w where
  watcher hw := absurd (h.watcher.symm.trans hw) nofun
  leased := by
    rw [h.leased]
    exact ⟨nofun, fun ⟨op, hop, hleaks⟩ => absurd ((h.failed op hop).symm.trans hleaks) nofun⟩
  observation hacquired := absurd (h.acquired.symm.trans hacquired) nofun

theorem Fresh.outside (h : Fresh w) (o : σ) : Fresh { w with outside := o } :=
  ⟨h.leased, h.watcher, h.acquired, h.failed⟩

theorem Fresh.failing (h : Fresh w) (o : σ) (hop : op.leaks = false) :
    Unheld { w with outside := o, failed := w.failed ++ [op] } where
  leased := h.leased
  watcher := h.watcher
  acquired := h.acquired
  failed op' hop' := by
    rw [h.failed, List.nil_append, List.mem_singleton] at hop'
    exact hop' ▸ hop

/-- A failure before the `try`. -/
theorem Acquired.left (h : Acquired w) (hw : w.watcher = .none) (o : σ) (hop : op.leaks = true) :
    Left x { w with outside := o, failed := w.failed ++ [op] } :=
  left_of_leaked h.leased (fun hr => absurd (hw.symm.trans hr) nofun)
    (List.mem_append_right _ (List.mem_singleton_self op)) hop

theorem enter_meets : Meets Fresh (worker_runtime x).enter (fun _ => Ready x) (Left x) := by
  refine .bind (Q := fun _ => Fresh)
    (call_meets (fun w o h => h.outside o) fun w o h => (h.failing o rfl).left) fun _ => ?_
  split
  · refine .bind (Q := fun _ w => Acquired w ∧ w.watcher = .none) ?_ fun _ => ?_
    · refine .bind (Q := fun _ => Fresh)
        (call_meets (fun w o h => h.outside o) fun w o h => (h.failing o rfl).left)
        fun _ => .modify fun w h => ?_
      exact ⟨⟨rfl, rfl, h.failed⟩, h.watcher⟩
    · refine .bind (Q := fun _ w => Acquired w ∧ w.watcher = .none)
        (call_meets (fun w o h => ⟨h.1.outside o, h.2⟩) fun w o h => h.1.left h.2 o rfl) fun _ => ?_
      refine .bind (Q := fun _ w => Acquired w ∧ w.watcher = .none)
        (item_meets (fun v hv w h => h) fun hmissing w h => h.1.left h.2 w.outside rfl) fun _ => ?_
      exact .tryCatch prepare_meets fun e =>
        .bind (Q := fun _ => Left x) cleanup_meets fun _ => .throw fun _ h => h
  · exact .throw fun w h => Unheld.left
      ⟨h.leased, h.watcher, h.acquired, by rw [h.failed]; exact fun _ h => nomatch h⟩

theorem Body.meets {α : Type} (body : Body ε σ α) (runtime : WorkerRuntime) :
    Meets (Ready x) (body.run runtime) (fun _ => Held x) (Held x) := by
  refine .of_final fun w h => ?_
  obtain ⟨hleased, hwatcher, hacquired, hfailed⟩ := body.frame runtime w
  refine ⟨hleased.trans h.leased, hacquired.trans h.acquired, fun hw => ?_, fun op hop hleaks => ?_⟩
  · rw [hwatcher, h.watcher] at hw
    split at hw <;> cases hw
  · have hin := hfailed op hop hleaks
    rw [h.failed] at hin
    exact absurd hin List.not_mem_nil

/-- **The scope of a worker undoes what it did**, however the body ends and whatever raises: the
body finds the lease held, an observation of the start published and, for Uvicorn, the watcher
running; afterwards the watcher has ended, and the lease is left exactly where one of the calls has
raised after which the `finally` does not come to its release. Where the lease has been released,
the file in the directory of the observations is none of this start. -/
theorem worker_scope {α : Type} (x : Outside ε σ) (body : Body ε σ α) (w : World σ) (h : Fresh w) :
    (∀ runtime w', (worker_runtime x).enter w = .ok runtime w' → Ready x w') ∧
    Left x (final ((worker_runtime x).within body.run) w) := by
  refine ⟨(enter_meets w h).1, ?_⟩
  refine (Lib.ExitStack.meets_within enter_meets (fun runtime => body.meets runtime)
    fun _ _ => ?_).final h
  exact .bind (Q := fun _ => Left x) cleanup_meets fun _ => .pure fun _ h => h

/-- An Uvicorn worker whose watcher cannot be started. -/
def unstarted : Outside Unit Unit where
  run op _ := (if op = .start then .error () else .ok (), ())
  service := [("service_id", .str "start"), ("runtime", .str "uvicorn"),
    ("worker_state_dir", .str "/run/workers")]
  is_live := true
  worker_id := 0
  identity := ⟨7, 0⟩
  control_token := "secret"
  time := 0

/-- A body that does nothing. -/
def noBody : Body Unit Unit Unit := ⟨fun _ => pure (), fun _ _ => ⟨rfl, rfl, rfl, fun _ h _ => h⟩⟩

/-- The `finally` joins the thread that has not been started, and leaves the lease. -/
theorem worker_scope_unstarted :
    Left unstarted (final ((worker_runtime unstarted).within noBody.run)
      ⟨(), false, .none, .absent, false, []⟩) ∧
    (final ((worker_runtime unstarted).within noBody.run)
      ⟨(), false, .none, .absent, false, []⟩).leased = true :=
  ⟨(worker_scope unstarted noBody _ ⟨rfl, rfl, rfl, rfl⟩).2, by decide⟩

end LclFastapi.Runtime.WorkerScope
