import LclFastapi.Lib.Dict
import LclFastapi.Lib.JsonTree
import LclFastapi.Lib.Proc
import Mathlib.Data.List.Chain
import Mathlib.Logic.Function.Basic

/-!
# Launch overrides (`overrides.py`, `serve` of `runtime/common.py`, `main` of `cli/main.py`)

The overrides of a command line are bound by `main` in `CONFIG_OVERRIDES`, written by `serve` into
the environment, and read by `current_overrides` at every load of the configuration: in the master,
in its forked and spawned workers, in their background threads, and in the process that probes the
application.

* `Context` is what a reader has: its `CONFIG_OVERRIDES` and its environment. `create` is what a new
  process, thread or task has of its creator's, and `loads` is history: what each load read.
* `Manager` is what the process manager does in `serve`. Each of its `load`s is one of a descendant
  of the master, by any chain of creations; a descendant keeps the context it was created with,
  however late it loads.
* The command, the process manager and the descendants may write the environment, but for the
  three variables of the launch (`Variable`). A thread shares the environment of its process;
  what is written there while it runs is a `How.environ` of its chain.
* `dumps` is `json.dumps`. What `json.loads` makes of a text in its form is `Lib.Json`; what it
  makes of any other text is the parameter `decoder`.
* `os.environ[name] = value` raises where the system does not accept the value; a value that was in
  the environment before is accepted again.

**`overrides_everywhere`**: every load reads exactly the overrides of the launch, and in the end
`CONFIG_OVERRIDES`, the variables of the launch and all that no one else has written are as before.
-/

namespace LclFastapi.Overrides

open Lib (Dict)
open Lib.Json (Str Scalar join joinPair unpaired objectText scanObject scanObject_objectText
  join_eq_self_of_unpaired)
open Lib.Proc (final Keeps Returns final_bind_ok final_bind_error final_eq_ok final_eq_error
  final_get_bind final_modify_bind final_tryFinally)

/-! ## Overrides and their text -/

/-- The code points of a key. -/
def codes (s : String) : Str := s.toList.map Char.toNat

/-- `isinstance(value, (str, bool))`. -/
def isRaw : Scalar → Bool
  | .str _ | .bool _ => true
  | _ => false

/-- `dict[str, str | bool]`. -/
structure RawOverrides where
  bindings : Dict Str Scalar
  raw : ∀ e ∈ bindings.entries, isRaw e.2 = true

/-- What `json.loads` makes of a text. -/
inductive Loaded where
  /-- `ValueError`. -/
  | rejected
  /-- No object, or one with a list or an object as a value. -/
  | other
  | object (d : Dict Str Scalar)

/-- `json.dumps(overrides)`. -/
def dumps (o : RawOverrides) : Str := (objectText o.bindings.entries).map Char.toNat

/-- A text of `dumps`. -/
def scanned (text : Str) : Option (Dict Str Scalar) :=
  match scanObject (text.map Char.ofNat) with
  | some o => if h : (o.map Prod.fst).Nodup then some ⟨o, h⟩ else none
  | none => none

/-- `json.loads(text)`. -/
def loads (decoder : Str → Loaded) (text : Str) : Loaded :=
  match scanned text with
  | some d => .object d
  | none => if text = codes "\x7b\x7d" then .object .empty else decoder text

/-- What is raised. -/
inductive Exc (ε : Type) where
  | outside (e : ε)
  /-- `ValueError`, of `json.loads` or of its check. -/
  | transport
  /-- `os.environ[name] = value`. -/
  | putenv

/-- `os.environ`. -/
abbrev Environment := String → Option Str

/-- `environ[name] = value`, and `environ.pop(name, None)`. -/
def Environment.set (environ : Environment) (name : String) (value : Option Str) : Environment :=
  Function.update environ name value

theorem Environment.set_apply (environ : Environment) (name : String) (value : Option Str)
    (other : String) :
    environ.set name value other = if other = name then value else environ other :=
  Function.update_apply environ name value other

theorem Environment.set_self (environ : Environment) (name : String) (value : Option Str) :
    environ.set name value name = value := by
  rw [set_apply, if_pos rfl]

/-- What a reader has. -/
structure Context where
  /-- `CONFIG_OVERRIDES.get()`. -/
  overrides : Option RawOverrides
  environ : Environment

/-- The variable of the configuration path. -/
def CONFIG : String := "LCL_FASTAPI_CONFIG"

/-- The variable of the state directory. -/
def STATE : String := "LCL_FASTAPI_STATE"

/-- The variable of the overrides. -/
def OVERRIDES_ENV : String := "LCL_FASTAPI_OVERRIDES"

/-- A variable that is none of the launch, and what is written there: a value, or `None`. -/
structure Variable where
  name : String
  value : Option Str
  foreign : name ∉ [CONFIG, STATE, OVERRIDES_ENV]

/-- `os.environ[name] = value`, or `os.environ.pop(name, None)`. -/
def Context.write (c : Context) (v : Variable) : Context :=
  { c with environ := c.environ.set v.name v.value }

theorem Context.write_apply (c : Context) (v : Variable) {name : String} (h : v.name ≠ name) :
    (c.write v).environ name = c.environ name :=
  (c.environ.set_apply v.name v.value name).trans (if_neg h.symm)

theorem Variable.ne_overrides (v : Variable) : v.name ≠ OVERRIDES_ENV :=
  fun h => v.foreign (h ▸ by simp)

variable {ε σ : Type}

/-- The bound overrides, else those of the environment. -/
def current_overrides (decoder : Str → Loaded) (c : Context) : Except (Exc ε) RawOverrides :=
  match c.overrides with
  | some selected => .ok selected
  | none =>
    match loads decoder ((c.environ OVERRIDES_ENV).getD (codes "\x7b\x7d")) with
    | .object d => if h : ∀ e ∈ d.entries, isRaw e.2 = true then .ok ⟨d, h⟩ else .error .transport
    | _ => .error .transport

/-! ## Descendants -/

/-- How a process, a thread or a task is created. -/
inductive How where
  /-- `os.fork`, `copy_context`: tasks, `asyncio.to_thread`. -/
  | copy
  /-- A process with the environment of its creator, or a thread of an executor, which shares it. -/
  | spawn
  /-- `WorkerThread`: a clean context in `override_scope(self.overrides)`. -/
  | thread
  /-- The process of `has_background_workers(path)`. -/
  | probe (path : Str)
  /-- No creation: the process of the descendant writes its environment. -/
  | environ (v : Variable)

/-- The context of a descendant. -/
def create (decoder : Str → Loaded) (c : Context) : How → Except (Exc ε) Context
  | .copy => .ok c
  | .spawn => .ok { c with overrides := none }
  | .thread => do
    let o ← current_overrides decoder c
    return { c with overrides := some o }
  | .probe path => do
    let o ← current_overrides decoder c
    return {
      overrides := none
      environ := (c.environ.set CONFIG (some path)).set OVERRIDES_ENV (some (dumps o)) }
  | .environ v => .ok (c.write v)

/-- What a descendant reads. -/
def reads (decoder : Str → Loaded) (c : Context) : List How → Except (Exc ε) RawOverrides
  | [] => current_overrides decoder c
  | how :: hows => do reads decoder (← create decoder c how) hows

/-! ## The launch -/

/-- The settings that `serve` uses. -/
structure Settings where
  workers : Nat
  state_dir : Str

/-- What is not the launch: what it answers, and with which effect. -/
structure Outside (ε σ : Type) where
  decoder : Str → Loaded
  /-- Whether the system accepts a variable. -/
  accepts : String → Str → Bool
  /-- `entrance.run(selected)`: what is pending after a success. -/
  command : σ → Except ε (Option (Str × Bool)) × σ
  /-- `load_settings(path)`. -/
  load_settings : σ → Except ε Settings × σ
  /-- Whether the application has background workers. -/
  probe : σ → Except ε Bool × σ
  /-- The warning of `startup_settings`. -/
  warn : σ → Except ε Unit × σ

/-- The state of a launch; `loads` is history. -/
structure World (ε σ : Type) where
  outside : σ
  context : Context
  loads : List (Except (Exc ε) RawOverrides)

/-- Programs of the master. -/
abbrev M (ε σ : Type) := EStateM (Exc ε) (World ε σ)

/-- A call of code outside. -/
def ask {α : Type} (f : σ → Except ε α × σ) : M ε σ α := do
  let w ← get
  modify fun v => { v with outside := (f w.outside).2 }
  match (f w.outside).1 with
  | .ok a => return a
  | .error e => throw (.outside e)

variable (x : Outside ε σ)

/-- A descendant loads the configuration. -/
def note (hows : List How) : M ε σ Unit :=
  modify fun w => { w with loads := w.loads ++ [reads x.decoder w.context hows] }

/-- The master writes its environment. -/
def write (v : Variable) : M ε σ Unit :=
  modify fun w => { w with context := w.context.write v }

/-- The process manager. -/
inductive Manager (ε : Type) where
  | load (hows : List How) (next : Manager ε)
  /-- Gunicorn's arbiter sets `SERVER_SOFTWARE`. -/
  | environ (v : Variable) (next : Manager ε)
  | ret
  | raise (e : Exc ε)

/-- The body of `serve` under the process manager. -/
def Manager.run : Manager ε → M ε σ Unit
  | .load hows next => do
    note x hows
    run next
  | .environ v next => do
    write v
    run next
  | .ret => pure ()
  | .raise e => throw e

/-- The variables that the process manager writes. -/
def Manager.writes : Manager ε → List Variable
  | .load _ next => next.writes
  | .environ v next => v :: next.writes
  | .ret | .raise _ => []

/-- `os.environ[name] = value`. -/
def putenv (name : String) (value : Str) : M ε σ Unit :=
  if x.accepts name value then
    modify fun w => { w with
      context.environ := w.context.environ.set name (some value) }
  else throw .putenv

/-- `current_overrides()` in the master. -/
def launched : M ε σ RawOverrides := do
  let w ← get
  match current_overrides x.decoder w.context with
  | .ok o => return o
  | .error e => throw e

/-- `has_background_workers(path)`. -/
def has_background_workers (path : Str) : M ε σ Bool := do
  let _ ← launched x
  note x [.probe path]
  ask x.probe

/-- A warning, and one worker. -/
def forced (settings : Settings) : M ε σ Settings := do
  ask x.warn
  return { settings with workers := 1 }

/-- One worker if the application has background workers. -/
def single (path : Str) (settings : Settings) : M ε σ Settings := do
  if ← has_background_workers x path then forced x settings else return settings

/-- `startup_settings(path, hot_reload)`. -/
def startup_settings (path : Str) (hot_reload : Bool) : M ε σ Settings := do
  let _ ← launched x
  note x []
  let settings ← ask x.load_settings
  if settings.workers ≤ 1 then return settings
  else if hot_reload then forced x settings
  else single x path settings

/-- The loop in the `finally` of `serve`. -/
def restore (previous environ : Environment) : Environment :=
  [CONFIG, STATE, OVERRIDES_ENV].foldl (fun e name => e.set name (previous name)) environ

/-- `serve(config_path, hot_reload)`. -/
def serve (manager : Manager ε) (path : Str) (hot_reload : Bool) : M ε σ Unit := do
  let settings ← startup_settings x path hot_reload
  let previous ← get
  let o ← launched x
  putenv x OVERRIDES_ENV (dumps o)
  putenv x CONFIG path
  putenv x STATE settings.state_dir
  tryFinally (manager.run x) (modify fun w =>
    { w with context.environ := restore previous.context.environ w.context.environ })

/-- `CliParams`. -/
structure CliParams where
  overrides : RawOverrides
  masked_names : Str → Bool
  verbose : Bool

/-- A name as `main` binds it. -/
def CliParams.key (params : CliParams) (key : Str) : Str :=
  if params.masked_names key then key ++ codes "!" else key

/-- What `main` binds for the parameters of the command line. -/
def CliParams.bindings (params : CliParams) : Dict Str Scalar :=
  (List.foldl (fun (d : Dict Str Scalar) (e : Str × Scalar) => d.set (params.key e.1) e.2) .empty
    (params.overrides.bindings.entries.filter fun e => e.1 ≠ codes "config")).set
      (codes "__verbose__") (.bool params.verbose)

/-! ## What is bound -/

variable {d : Dict Str Scalar} {P : Str × Scalar → Prop}

theorem forall_set {key : Str} {v : Scalar} (hd : ∀ e ∈ d.entries, P e) (h : P (key, v)) :
    ∀ e ∈ (d.set key v).entries, P e := by
  rintro ⟨key', v'⟩ he
  rw [Dict.mem_entries, Dict.get?_set] at he
  by_cases hkey : key' = key
  · rw [if_pos hkey] at he
    rw [hkey, ← Option.some.inj he]
    exact h
  · rw [if_neg hkey] at he
    exact hd _ (Dict.mem_entries.mpr he)

theorem forall_bindings {params : CliParams}
    (h : ∀ e ∈ params.overrides.bindings.entries, P (params.key e.1, e.2))
    (hverbose : P (codes "__verbose__", .bool params.verbose)) :
    ∀ e ∈ params.bindings.entries, P e := by
  have hfilter : ∀ e ∈ params.overrides.bindings.entries.filter fun e => e.1 ≠ codes "config",
      P (params.key e.1, e.2) := fun e he => h e (List.mem_filter.mp he).1
  have hempty : ∀ e ∈ (Dict.empty : Dict Str Scalar).entries, P e :=
    fun _ he => absurd he List.not_mem_nil
  unfold CliParams.bindings
  generalize (Dict.empty : Dict Str Scalar) = start at hempty ⊢
  generalize params.overrides.bindings.entries.filter (fun e => e.1 ≠ codes "config") = entries
    at hfilter ⊢
  induction entries generalizing start with
  | nil => exact forall_set hempty hverbose
  | cons e entries ih =>
    obtain ⟨he, hentries⟩ := List.forall_mem_cons.mp hfilter
    exact ih _ (forall_set hempty he) hentries

/-- The overrides that `main` binds. -/
def launch_overrides : Option CliParams → RawOverrides
  | none => ⟨.empty, fun _ he => absurd he List.not_mem_nil⟩
  | some params => ⟨params.bindings, forall_bindings params.overrides.raw rfl⟩

/-- `with override_scope(overrides): body`. -/
def override_scope {α : Type} (o : RawOverrides) (body : M ε σ α) : M ε σ α := do
  let w ← get
  modify fun v => { v with context.overrides := some o }
  tryFinally body (modify fun v => { v with context.overrides := w.context.overrides })

/-- `entrance.run(selected)`; the command loads the configuration as often as it likes, and writes
its environment. -/
def command (written : List Variable) : M ε σ (Option (Str × Bool)) := do
  note x []
  written.forM write
  ask x.command

/-- `entrance()`: what the command leaves pending is served. -/
def entrance (written : List Variable) (manager : Manager ε) : M ε σ Unit := do
  match ← command x written with
  | some (path, hot_reload) => serve x manager path hot_reload
  | none => return ()

/-- `main`. -/
def main (params : Option CliParams) (written : List Variable) (manager : Manager ε) :
    M ε σ Unit :=
  override_scope (launch_overrides params) (entrance x written manager)

/-! ## The transport -/

/-- A binding that its text keeps: Python strings without a pair of surrogates. -/
structure Stable (e : Str × Scalar) : Prop where
  key : Lib.Json.Valid e.1
  value : e.2.Valid
  key_unpaired : unpaired e.1 = true
  value_unpaired : e.2.unpaired = true

theorem Stable.joinPair {e : Str × Scalar} (h : Stable e) : joinPair e = e := by
  have hkey : join e.1 = e.1 := join_eq_self_of_unpaired h.key_unpaired
  have hvalue : e.2.join = e.2 := by
    have hu := h.value_unpaired
    cases hv : e.2 with
    | str s =>
      rw [hv] at hu
      exact congrArg Scalar.str (join_eq_self_of_unpaired hu)
    | _ => rfl
  exact Prod.ext hkey hvalue

variable {decoder : Str → Loaded} {o : RawOverrides} {c c' : Context} {how : How} {hows : List How}

/-- **The transport keeps the overrides.** -/
theorem loads_dumps (h : ∀ e ∈ o.bindings.entries, Stable e) :
    loads decoder (dumps o) = .object o.bindings := by
  have hchars : (dumps o).map Char.ofNat = objectText o.bindings.entries := by
    unfold dumps
    rw [List.map_map]
    exact (List.map_congr_left fun c _ => Char.ofNat_toNat c).trans (List.map_id _)
  unfold loads scanned
  rw [hchars]
  by_cases hempty : o.bindings.entries = []
  · have hd : o.bindings = .empty := by
      obtain ⟨⟨entries, hnodup⟩, hraw⟩ := o
      subst hempty
      rfl
    have htext : dumps o = codes "\x7b\x7d" := by
      unfold dumps
      rw [hempty]
      rfl
    rw [hempty, htext, hd]
    rfl
  · have hjoin : o.bindings.entries.map joinPair = o.bindings.entries :=
      (List.map_congr_left fun e he => (h e he).joinPair).trans (List.map_id _)
    have hkeys : o.bindings.entries.map (fun e => join e.1) = o.bindings.entries.map Prod.fst :=
      List.map_congr_left fun e he => join_eq_self_of_unpaired (h e he).key_unpaired
    rw [scanObject_objectText hempty (fun e he => ⟨(h e he).key, (h e he).value⟩)
      (hkeys ▸ o.bindings.nodup), hjoin]
    simp only [dif_pos o.bindings.nodup]

/-- A context in which the overrides `o` are transported. -/
structure Carries (o : RawOverrides) (c : Context) : Prop where
  environ : c.environ OVERRIDES_ENV = some (dumps o)
  overrides : ∀ o', c.overrides = some o' → o' = o

theorem selected_of_current
    (h : (current_overrides decoder c : Except (Exc ε) RawOverrides) = .ok o) :
    ∀ o', c.overrides = some o' → o' = o := by
  intro o' ho
  rw [current_overrides, ho] at h
  exact Except.ok.inj h

theorem current_overrides_none (h : ∀ e ∈ o.bindings.entries, Stable e)
    (hoverrides : c.overrides = none) (henviron : c.environ OVERRIDES_ENV = some (dumps o)) :
    (current_overrides decoder c : Except (Exc ε) RawOverrides) = .ok o := by
  unfold current_overrides
  rw [hoverrides, henviron, Option.getD_some, loads_dumps h]
  exact dif_pos o.raw

theorem Carries.current (h : ∀ e ∈ o.bindings.entries, Stable e) (hc : Carries o c) :
    (current_overrides decoder c : Except (Exc ε) RawOverrides) = .ok o := by
  cases hoverrides : c.overrides with
  | none => exact current_overrides_none h hoverrides hc.environ
  | some o' =>
    rw [current_overrides, hoverrides]
    exact congrArg _ (hc.overrides o' hoverrides)

/-- What carries the overrides passes them on. -/
theorem Carries.create (h : ∀ e ∈ o.bindings.entries, Stable e) (hc : Carries o c)
    (decoder : Str → Loaded) (how : How) :
    ∃ c', (create decoder c how : Except (Exc ε) Context) = .ok c' ∧ Carries o c' := by
  have hcurrent : (current_overrides decoder c : Except (Exc ε) RawOverrides) = .ok o :=
    hc.current h
  cases how with
  | copy => exact ⟨c, rfl, hc⟩
  | spawn => exact ⟨{ c with overrides := none }, rfl, hc.environ, fun _ ho => nomatch ho⟩
  | thread =>
    unfold Overrides.create
    rw [hcurrent]
    exact ⟨{ c with overrides := some o }, rfl, hc.environ, fun _ ho => (Option.some.inj ho).symm⟩
  | probe path =>
    unfold Overrides.create
    rw [hcurrent]
    exact ⟨_, rfl, (c.environ.set CONFIG (some path)).set_self OVERRIDES_ENV _,
      fun _ ho => nomatch ho⟩
  | environ v =>
    exact ⟨c.write v, rfl, (c.write_apply v v.ne_overrides).trans hc.environ, hc.overrides⟩

theorem Carries.reads (h : ∀ e ∈ o.bindings.entries, Stable e) (hc : Carries o c)
    (hows : List How) : (reads decoder c hows : Except (Exc ε) RawOverrides) = .ok o := by
  induction hows generalizing c with
  | nil => exact hc.current h
  | cons how hows ih =>
    obtain ⟨c', hcreate, hc'⟩ := hc.create (ε := ε) h decoder how
    unfold Overrides.reads
    rw [hcreate]
    exact ih hc'

/-- The probe is given the overrides also where the environment has none. -/
theorem reads_probe (h : ∀ e ∈ o.bindings.entries, Stable e)
    (hcurrent : (current_overrides decoder c : Except (Exc ε) RawOverrides) = .ok o) (path : Str) :
    (reads decoder c [.probe path] : Except (Exc ε) RawOverrides) = .ok o := by
  unfold reads create
  rw [hcurrent]
  show current_overrides decoder ⟨none, (c.environ.set CONFIG (some path)).set OVERRIDES_ENV
    (some (dumps o))⟩ = _
  exact current_overrides_none h rfl ((c.environ.set CONFIG (some path)).set_self OVERRIDES_ENV _)

/-! ## The launch -/

variable {x : Outside ε σ} {w : World ε σ} {path : Str} {hot_reload : Bool} {vs : List Variable}

/-- The master has the context `c`, but for what is written, and every load so far has read `o`. -/
structure Inv (vs : List Variable) (o : RawOverrides) (c : Context) (w : World ε σ) : Prop where
  overrides : w.context.overrides = c.overrides
  environ : ∀ name, (∀ v ∈ vs, v.name ≠ name) → w.context.environ name = c.environ name
  loads : ∀ loaded ∈ w.loads, loaded = .ok o

theorem Inv.overrides_environ (hw : Inv vs o c w) :
    w.context.environ OVERRIDES_ENV = c.environ OVERRIDES_ENV :=
  hw.environ OVERRIDES_ENV fun v _ => v.ne_overrides

/-- The written variables make no difference to the overrides. -/
theorem Inv.current (hw : Inv vs o c w) :
    (current_overrides decoder w.context : Except (Exc ε) _) = current_overrides decoder c := by
  unfold current_overrides
  rw [hw.overrides, hw.overrides_environ]

theorem Inv.carries (hw : Inv vs o c w) (hc : Carries o c) : Carries o w.context :=
  ⟨hw.overrides_environ.trans hc.environ, hw.overrides ▸ hc.overrides⟩

theorem ask_keeps {α : Type} {f : σ → Except ε α × σ} :
    Keeps (Inv vs o c) (ask f : M ε σ α) := by
  refine Keeps.get_bind fun w hw => ?_
  rw [final_modify_bind]
  cases (f w.outside).1 with
  | ok a => exact ⟨hw.overrides, hw.environ, hw.loads⟩
  | error e => exact ⟨hw.overrides, hw.environ, hw.loads⟩

theorem note_keeps (h : ∀ w : World ε σ, Inv vs o c w →
      (reads x.decoder w.context hows : Except (Exc ε) RawOverrides) = .ok o) :
    Keeps (Inv vs o c) (note x hows) := by
  refine Keeps.modify fun w hw => ⟨hw.overrides, hw.environ, fun loaded hl => ?_⟩
  rcases List.mem_append.mp hl with hl | hl
  · exact hw.loads loaded hl
  · rw [List.mem_singleton.mp hl, h w hw]

theorem write_keeps {v : Variable} (hv : v ∈ vs) : Keeps (Inv vs o c) (write v : M ε σ Unit) := by
  refine Keeps.modify fun w hw => ⟨hw.overrides, fun name hname => ?_, hw.loads⟩
  exact (w.context.write_apply v (hname v hv)).trans (hw.environ name hname)

theorem writes_keeps {written : List Variable} (hvs : ∀ v ∈ written, v ∈ vs) :
    Keeps (Inv vs o c) (written.forM write : M ε σ Unit) := by
  induction written with
  | nil => exact .pure
  | cons v written ih =>
    obtain ⟨hv, hvs⟩ := List.forall_mem_cons.mp hvs
    exact .bind (write_keeps hv) fun _ => ih hvs

theorem launched_ok (h : (current_overrides x.decoder w.context : Except (Exc ε) _) = .ok o) :
    launched x w = .ok o w := by
  unfold launched
  rw [Lib.Proc.get_bind_apply, h]
  rfl

theorem launched_keeps : Keeps (Inv vs o c) (launched x) := by
  refine Keeps.get_bind fun w hw => ?_
  split
  · exact hw
  · exact hw

theorem manager_keeps (h : ∀ e ∈ o.bindings.entries, Stable e) (hc : Carries o c)
    {manager : Manager ε} (hvs : ∀ v ∈ manager.writes, v ∈ vs) :
    Keeps (Inv vs o c) (manager.run x) := by
  induction manager with
  | load hows next ih =>
    exact .bind (note_keeps fun w hw => (hw.carries hc).reads h hows) fun _ => ih hvs
  | environ v next ih =>
    obtain ⟨hv, hvs⟩ := List.forall_mem_cons.mp hvs
    exact .bind (write_keeps hv) fun _ => ih hvs
  | ret => exact .pure
  | raise e => exact .throw

theorem startup_keeps (h : ∀ e ∈ o.bindings.entries, Stable e)
    (hcurrent : (current_overrides x.decoder c : Except (Exc ε) _) = .ok o) (path : Str)
    (hot_reload : Bool) : Keeps (Inv vs o c) (startup_settings x path hot_reload) := by
  have hforced (settings : Settings) : Keeps (Inv vs o c) (forced x settings) :=
    .bind ask_keeps fun _ => .pure
  have hselected (w : World ε σ) (hw : Inv vs o c w) :
      (current_overrides x.decoder w.context : Except (Exc ε) _) = .ok o :=
    hw.current.trans hcurrent
  have hsingle (settings : Settings) : Keeps (Inv vs o c) (single x path settings) := by
    have hprobe : Keeps (Inv vs o c) (has_background_workers x path) :=
      .bind launched_keeps fun _ =>
        .bind (note_keeps fun w hw => reads_probe h (hselected w hw) path) fun _ => ask_keeps
    refine .bind hprobe fun registered => ?_
    cases registered with
    | true => exact hforced settings
    | false => exact .pure
  refine .bind launched_keeps fun _ => .bind (note_keeps hselected) fun _ =>
    .bind ask_keeps fun settings => ?_
  split
  · exact .pure
  · split
    · exact hforced settings
    · exact hsingle settings

theorem ask_returns {α : Type} {f : σ → Except ε α × σ} {P : α → Prop}
    (h : ∀ s a s', f s = (.ok a, s') → P a) : Returns P (ask f : M ε σ α) := by
  intro w a w' hr
  unfold ask at hr
  rw [Lib.Proc.get_bind_apply, Lib.Proc.modify_bind_apply] at hr
  cases hf : (f w.outside).1 with
  | ok b =>
    rw [hf] at hr
    cases hr
    exact h w.outside a (f w.outside).2 (Prod.ext hf rfl)
  | error e =>
    rw [hf] at hr
    cases hr

/-- The state directory is the one of the configuration. -/
theorem startup_returns {P : Str → Prop}
    (h : ∀ s settings s', x.load_settings s = (.ok settings, s') → P settings.state_dir) :
    Returns (fun settings => P settings.state_dir) (startup_settings x path hot_reload) := by
  have hforced (settings : Settings) (hs : P settings.state_dir) :
      Returns (fun settings => P settings.state_dir) (forced x settings) :=
    .of_bind fun _ => .pure hs
  have hload : Returns (fun settings : Settings => P settings.state_dir) (ask x.load_settings) :=
    ask_returns h
  refine .of_bind fun _ => .of_bind fun _ => .bind hload fun settings hs => ?_
  split
  · exact .pure hs
  · split
    · exact hforced settings hs
    · refine .of_bind fun registered => ?_
      cases registered with
      | true => exact hforced settings hs
      | false => exact .pure hs

/-- The variables of the launch are restored, and no others. -/
theorem restore_apply (previous environ : Environment) (name : String) :
    restore previous environ name =
      if name ∈ [CONFIG, STATE, OVERRIDES_ENV] then previous name else environ name := by
  unfold restore
  simp only [List.foldl_cons, List.foldl_nil, Environment.set_apply]
  by_cases h : name ∈ [CONFIG, STATE, OVERRIDES_ENV]
  · rw [if_pos h]
    simp only [List.mem_cons, List.not_mem_nil, or_false] at h
    rcases h with rfl | rfl | rfl
    · rfl
    · rfl
    · rfl
  · rw [if_neg h]
    simp only [List.mem_cons, List.not_mem_nil, or_false, not_or] at h
    obtain ⟨hconfig, hstate, hoverrides⟩ := h
    rw [if_neg hoverrides, if_neg hstate, if_neg hconfig]

theorem putenv_ok {name : String} {value : Str} (h : x.accepts name value = true) :
    putenv x name value w = .ok ⟨⟩
      { w with context.environ := w.context.environ.set name (some value) } := by
  unfold putenv
  rw [if_pos h]
  rfl

/-- The environment in which the process manager runs. -/
def serving (environ : Environment) (o : RawOverrides) (path state_dir : Str) : Environment :=
  ((environ.set OVERRIDES_ENV (some (dumps o))).set CONFIG (some path)).set STATE (some state_dir)

theorem serving_overrides (environ : Environment) (path state_dir : Str) :
    serving environ o path state_dir OVERRIDES_ENV = some (dumps o) := by
  unfold serving
  rw [Environment.set_apply, if_neg (by decide), Environment.set_apply, if_neg (by decide),
    Environment.set_self]

theorem serving_other {environ : Environment} {path state_dir : Str} {name : String}
    (h : name ∉ [CONFIG, STATE, OVERRIDES_ENV]) :
    serving environ o path state_dir name = environ name := by
  simp only [List.mem_cons, List.not_mem_nil, or_false, not_or] at h
  obtain ⟨hconfig, hstate, hoverrides⟩ := h
  unfold serving
  rw [Environment.set_apply, if_neg hstate, Environment.set_apply, if_neg hconfig,
    Environment.set_apply, if_neg hoverrides]

/-- The end of `serve`. -/
theorem restored {state_dir : Str}
    (h : Inv vs o { c with environ := serving c.environ o path state_dir } w) :
    Inv vs o c { w with context.environ := restore c.environ w.context.environ } := by
  refine ⟨h.overrides, fun name hname => ?_, h.loads⟩
  show restore c.environ w.context.environ name = c.environ name
  rw [restore_apply]
  split_ifs with hlaunch
  · rfl
  · exact (h.environ name hname).trans (serving_other hlaunch)

theorem Inv.trans {w' : World ε σ} (hw : Inv vs o c w) (h : Inv vs o w.context w') :
    Inv vs o c w' :=
  ⟨h.overrides.trans hw.overrides,
    fun name hname => (h.environ name hname).trans (hw.environ name hname), h.loads⟩

/-- **`serve` transports the overrides of its caller**, and leaves its environment. -/
theorem serve_keeps (h : ∀ e ∈ o.bindings.entries, Stable e)
    (hcurrent : (current_overrides x.decoder c : Except (Exc ε) _) = .ok o)
    (hpath : x.accepts CONFIG path = true)
    (hstate : ∀ s settings s', x.load_settings s = (.ok settings, s') →
      x.accepts STATE settings.state_dir = true) {manager : Manager ε}
    (hvs : ∀ v ∈ manager.writes, v ∈ vs) :
    Keeps (Inv vs o c) (serve x manager path hot_reload) := by
  intro w hw
  have hstartup := startup_keeps h hcurrent path hot_reload w hw
  unfold serve
  cases hs : startup_settings x path hot_reload w with
  | error e w₁ =>
    rw [final_bind_error _ hs]
    exact final_eq_error hs ▸ hstartup
  | ok settings w₁ =>
    have hw₁ : Inv vs o c w₁ := final_eq_ok hs ▸ hstartup
    have hcurrent₁ : (current_overrides x.decoder w₁.context : Except (Exc ε) _) = .ok o :=
      hw₁.current.trans hcurrent
    have hselected₁ := selected_of_current hcurrent₁
    have hdir : x.accepts STATE settings.state_dir = true :=
      startup_returns (P := fun dir => x.accepts STATE dir = true) hstate w settings w₁ hs
    have hl : launched x w₁ = .ok o w₁ := launched_ok hcurrent₁
    rw [final_bind_ok _ hs, final_get_bind, final_bind_ok _ hl]
    by_cases haccepts : x.accepts OVERRIDES_ENV (dumps o) = true
    · rw [final_bind_ok _ (putenv_ok haccepts), final_bind_ok _ (putenv_ok hpath),
        final_bind_ok _ (putenv_ok hdir), final_tryFinally]
      have hserving : Carries o { w₁.context with
          environ := serving w₁.context.environ o path settings.state_dir } :=
        ⟨serving_overrides w₁.context.environ path settings.state_dir,
          hselected₁⟩
      have hmanager := manager_keeps (x := x) h hserving hvs { w₁ with context := { w₁.context with
        environ := serving w₁.context.environ o path settings.state_dir } }
        ⟨rfl, fun _ _ => rfl, hw₁.loads⟩
      exact hw₁.trans (restored hmanager)
    · have hputenv : putenv x OVERRIDES_ENV (dumps o) w₁ = .error .putenv w₁ := by
        unfold putenv
        rw [if_neg haccepts]
        rfl
      rw [final_bind_error _ hputenv]
      exact hw₁

/-! ## The whole launch -/

theorem verbose_stable :
    unpaired (codes "__verbose__") = true ∧ Lib.Json.Valid (codes "__verbose__") := by
  decide

/-- The mark of a masked name is no surrogate. -/
theorem unpaired_mark {s : Str} (h : unpaired s = true) : unpaired (s ++ codes "!") = true := by
  refine decide_eq_true (List.isChain_append.mpr ⟨of_decide_eq_true h, .singleton _, ?_⟩)
  intro a _ b hb
  rw [← Option.some.inj hb]
  exact Bool.and_false _

theorem launch_stable {params : CliParams} (h : ∀ e ∈ params.overrides.bindings.entries, Stable e) :
    ∀ e ∈ (launch_overrides (some params)).bindings.entries, Stable e := by
  refine forall_bindings (fun e he => ?_) ⟨verbose_stable.2, trivial, verbose_stable.1, rfl⟩
  have hs := h e he
  unfold CliParams.key
  split
  · refine ⟨fun c hc => ?_, hs.value, unpaired_mark hs.key_unpaired, hs.value_unpaired⟩
    rcases List.mem_append.mp hc with hc | hc
    · exact hs.key c hc
    · rw [List.mem_singleton.mp hc]
      decide
  · exact hs

/-- The command keeps the overrides, and leaves pending what it has been given. -/
theorem command_keeps {written : List Variable} (hvs : ∀ v ∈ written, v ∈ vs)
    (hcurrent : (current_overrides x.decoder c : Except (Exc ε) _) = .ok o) :
    Keeps (Inv vs o c) (command x written) :=
  .bind (note_keeps fun _ hw => hw.current.trans hcurrent) fun _ =>
    .bind (writes_keeps hvs) fun _ => ask_keeps

theorem command_returns {written : List Variable} {P : Str × Bool → Prop}
    (h : ∀ s pending s', x.command s = (.ok (some pending), s') → P pending) :
    Returns (fun returned => ∀ pending, returned = some pending → P pending)
      (command x written) := by
  refine .of_bind fun _ => .of_bind fun _ => ask_returns fun s returned s' hr pending hp => ?_
  exact h s pending s' (hp ▸ hr)

/-- **The entrance keeps the overrides**, whether it serves or not. -/
theorem entrance_keeps {written : List Variable} {manager : Manager ε}
    (h : ∀ e ∈ o.bindings.entries, Stable e)
    (hcurrent : (current_overrides x.decoder c : Except (Exc ε) _) = .ok o)
    (hpath : ∀ s path hot_reload s', x.command s = (.ok (some (path, hot_reload)), s') →
      x.accepts CONFIG path = true)
    (hstate : ∀ s settings s', x.load_settings s = (.ok settings, s') →
      x.accepts STATE settings.state_dir = true)
    (hvs : ∀ v ∈ written ++ manager.writes, v ∈ vs) :
    Keeps (Inv vs o c) (entrance x written manager) := by
  obtain ⟨hwritten, hmanager⟩ := List.forall_mem_append.mp hvs
  intro w hw
  have hcommand := command_keeps hwritten hcurrent w hw
  unfold entrance
  cases hr : command x written w with
  | error e w' =>
    rw [final_bind_error _ hr]
    exact final_eq_error hr ▸ hcommand
  | ok returned w' =>
    have hw' : Inv vs o c w' := final_eq_ok hr ▸ hcommand
    have hreturned := command_returns (P := fun pending => x.accepts CONFIG pending.1 = true)
      (fun s pending s' => hpath s pending.1 pending.2 s') w returned w' hr
    rw [final_bind_ok _ hr]
    match returned, hreturned with
    | none, _ => exact hw'
    | some (path, hot_reload), hreturned =>
      exact serve_keeps h hcurrent (hreturned _ rfl) hstate hmanager w' hw'

/-- **The overrides of a launch are everywhere.** However the command, the start and the process
manager go on and end, every load of the configuration, in the master and in every descendant of
it, reads exactly the overrides of the launch; and in the end `CONFIG_OVERRIDES`, the variables of
the launch and those that neither the command nor the process manager has written are as before. -/
theorem overrides_everywhere (x : Outside ε σ) (params : Option CliParams)
    (written : List Variable) (manager : Manager ε) (w : World ε σ) (hloads : w.loads = [])
    (hstable : ∀ p, params = some p → ∀ e ∈ p.overrides.bindings.entries, Stable e)
    (hpath : ∀ s path hot_reload s', x.command s = (.ok (some (path, hot_reload)), s') →
      x.accepts CONFIG path = true)
    (hstate : ∀ s settings s', x.load_settings s = (.ok settings, s') →
      x.accepts STATE settings.state_dir = true) :
    (∀ loaded ∈ (final (main x params written manager) w).loads,
      loaded = .ok (launch_overrides params)) ∧
    (final (main x params written manager) w).context.overrides = w.context.overrides ∧
    ∀ name, (name ∈ [CONFIG, STATE, OVERRIDES_ENV] ∨
        ∀ v ∈ written ++ manager.writes, v.name ≠ name) →
      (final (main x params written manager) w).context.environ name = w.context.environ name := by
  have hstable' : ∀ e ∈ (launch_overrides params).bindings.entries, Stable e := by
    cases params with
    | none => exact fun _ he => absurd he List.not_mem_nil
    | some p => exact launch_stable (hstable p rfl)
  have hcurrent : (current_overrides x.decoder
      { w.context with overrides := some (launch_overrides params) } : Except (Exc ε) _) =
        .ok (launch_overrides params) := rfl
  have hbody : Keeps (Inv (written ++ manager.writes) (launch_overrides params)
      { w.context with overrides := some (launch_overrides params) })
      (entrance x written manager) :=
    entrance_keeps hstable' hcurrent hpath hstate fun _ hv => hv
  unfold main override_scope
  rw [final_get_bind, final_modify_bind, final_tryFinally]
  obtain ⟨-, henviron, hread⟩ := hbody
    { w with context.overrides := some (launch_overrides params) }
    ⟨rfl, fun _ _ => rfl, by rw [hloads]; exact fun _ hl => absurd hl List.not_mem_nil⟩
  refine ⟨hread, rfl, fun name hname => henviron name fun v hv heq => ?_⟩
  rcases hname with hlaunch | hname
  · exact v.foreign (heq ▸ hlaunch)
  · exact hname v hv heq

/-- `-m -o key value`, for a service with two API workers and background workers. -/
def masked : CliParams where
  overrides := ⟨⟨[(codes "key", .str (codes "value"))], by decide⟩, by decide⟩
  masked_names _ := true
  verbose := false

/-- A service with two API workers and background workers. -/
def served : Outside Unit Unit where
  decoder _ := .rejected
  accepts _ _ := true
  command s := (.ok (some (codes "/srv", false)), s)
  load_settings s := (.ok ⟨2, codes "/state"⟩, s)
  probe s := (.ok true, s)
  warn s := (.ok (), s)

/-- Gunicorn's arbiter names itself, and a worker is forked, which spawns a process. -/
def gunicorn : Manager Unit :=
  .environ ⟨"SERVER_SOFTWARE", some (codes "gunicorn"), by decide⟩
    (.load [.copy] (.load [.copy, .spawn, .thread] .ret))

/-- Nothing is bound or set before. -/
def unset : World Unit Unit := ⟨(), ⟨none, fun _ => none⟩, []⟩

theorem overrides_everywhere_served :
    (final (main served (some masked) [] gunicorn) unset).loads.length = 5 ∧
    ((∀ loaded ∈ (final (main served (some masked) [] gunicorn) unset).loads,
        loaded = .ok (launch_overrides (some masked))) ∧
      (final (main served (some masked) [] gunicorn) unset).context.overrides = none ∧
      (final (main served (some masked) [] gunicorn) unset).context.environ STATE = none) := by
  have hstable : ∀ p, some masked = some p → ∀ e ∈ p.overrides.bindings.entries, Stable e := by
    intro p hp e he
    obtain rfl := Option.some.inj hp
    rw [List.mem_singleton.mp he]
    exact ⟨by decide, by decide, by decide, by decide⟩
  obtain ⟨hloads, hoverrides, henviron⟩ := overrides_everywhere served (some masked) [] gunicorn
    unset rfl hstable (fun _ _ _ _ _ => rfl) (fun _ _ _ _ => rfl)
  exact ⟨by decide +kernel, hloads, hoverrides, henviron STATE (.inl (by decide))⟩

end LclFastapi.Overrides
