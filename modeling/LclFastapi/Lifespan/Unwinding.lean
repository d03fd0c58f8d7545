import LclFastapi.Lifespan.Program

/-!
# What the lifespan of a worker leaves behind

**`lifespan_unwinds`**: however the lifespan ends, the exit of everything it acquired has been
called exactly once, in reverse order, nothing has run without what it needs, and the process and
the application are as before, but for the sampler. What an exit that returned has released is gone;
of one that raised that is left open.

Three keys of the state are followed through the program, by the rules of `Lib/ExitStack.lean`:

* `standing`: what is held. Inside of a logger runtime `use_service_verbose` is always entered
  (`leaving_wraps`), so the business stack is unwound.
* `World.process`: every scope restores what it binds, and the business stack binds nothing.
* `application`: nothing can raise between the assignment of the attributes and the `try` whose
  `finally` clears them (`assigned_settles`), since `settings_from_frame` accepts only settings that
  `RequestRuntime` and `HealthSampler` take.

Assumed of the native library: `use_verbose` starts, and `SnowflakeGenerator` takes the number of
the worker.
-/

namespace LclFastapi.Lifespan

open Lib.ExitStack
open Lib.Proc (bind_eq_error bind_eq_ok bind_ok_apply final final_bind_error final_bind_ok
  final_eq_error final_eq_ok tryCatch_error tryCatch_ok)
open Config (Settings settings_from_frame)
open Routes (Route)

variable {ε σ : Type} {x : Outside ε σ}

/-! ## Operations -/

section Operations

variable {w w' : World σ} {op : Op} {inFlight : Option (Exc ε)} {hs : List Resource}

theorem held_append (trace : List Event) (event : Event) :
    held (trace ++ [event]) = (held trace).bind event.next := by
  unfold held
  rw [List.foldlM_append]
  exact congrArg (Option.bind _) (funext fun _ => by simp)

theorem raised_apply : raised x op inFlight w =
    match (x.run op inFlight (w.outside, w.routes)).1 with
    | .ok a => .ok a (w.after op (x.run op inFlight (w.outside, w.routes)).2)
    | .error e => .error (.outside e) (w.after op (x.run op inFlight (w.outside, w.routes)).2) := by
  unfold raised
  rw [Lib.Proc.get_bind_apply]
  refine (Lib.Proc.modify_bind_apply (fun _ => w.after op _) _).trans ?_
  cases (x.run op inFlight (w.outside, w.routes)).1 <;> rfl

theorem final_raised : final (raised x op inFlight) w =
    w.after op (x.run op inFlight (w.outside, w.routes)).2 := by
  simp only [final, raised_apply]
  cases (x.run op inFlight (w.outside, w.routes)).1 <;> rfl

end Operations

/-! ## What is held -/

section Held

variable {β : Type} {cm : Scope ε σ β} {r : Resource} {rs ns : List Resource}
variable {P : Option (List Resource) × Bool → Prop} {op : Op} {inFlight : Option (Exc ε)}

/-- What is held, and whether a native logger runtime is active. -/
def standing (w : World σ) : Option (List Resource) × Bool := (held w.trace, w.process.logger)

/-- Exactly these are held. -/
def At (rs : List Resource) (k : Option (List Resource) × Bool) : Prop :=
  k.1 = some rs ∧ (.logger ∈ rs → k.2 = true)

/-- These are held, among others perhaps. -/
def Has (ns : List Resource) (k : Option (List Resource) × Bool) : Prop :=
  ∃ hs, k.1 = some hs ∧ ns ⊆ hs

theorem At.has {k : Option (List Resource) × Bool} (h : At rs k) (hns : ns ⊆ rs) : Has ns k :=
  ⟨rs, h.1, hns⟩

theorem standing_raised (h : ∀ k, P k → op.needs = [] ∨ Has op.needs k) :
    Leaves standing P (raised x op inFlight) := by
  intro w hw
  rw [final_raised]
  refine Prod.ext ?_ rfl
  show held (w.trace ++ [.called op]) = held w.trace
  rw [held_append]
  rcases h _ hw with hn | ⟨hs, hk, hn⟩
  · cases held w.trace with
    | none => rfl
    | some hs => simp [Event.next, hn]
  · have hk : held w.trace = some hs := hk
    simp [hk, Event.next, hn]

/-- A scope that changes neither what is held nor whether a logger runtime is active. -/
structure Plain (ns : List Resource) (cm : Scope ε σ β) : Prop where
  enter : Leaves standing (Has ns) cm.enter
  exit : ∀ b e, Leaves standing (Has ns) (cm.exit b e)

/-- `use_service_verbose` suppresses nothing. -/
theorem verbose_raises {cli_verbose : Bool} (old : Option Bool) (e : Exc ε) (w w' : World σ) :
    (use_service_verbose x cli_verbose).exit old (some e) w ≠ .ok true w' := by
  intro h
  have h : EStateM.bind (tryFinally _ _) (fun _ => pure false) w = _ := h
  simp only [EStateM.bind] at h
  split at h
  · cases h
  · cases h

theorem acquiring_enter {w : World σ} : (acquiring r cm).enter w =
    match cm.enter w with
    | .ok b w' => .ok b { w' with trace := w'.trace ++ [.acquired r] }
    | .error e w' => .error e w' := by
  show EStateM.bind cm.enter _ w = _
  simp only [EStateM.bind]
  cases cm.enter w <;> rfl

/-- The exit runs, and then one event says how. -/
theorem acquiring_exit (r : Resource) (cm : Scope ε σ β) (b : β) (e : Option (Exc ε))
    (w : World σ) :
    ∃ event, (event = .released r ∨ event = .failed r) ∧
      final ((acquiring r cm).exit b e) w =
        { final (cm.exit b e) w with trace := (final (cm.exit b e) w).trace ++ [event] } := by
  unfold acquiring
  cases hr : cm.exit b e w with
  | ok suppressed w' =>
    refine ⟨.released r, .inl rfl, ?_⟩
    rw [final_eq_ok hr]
    exact final_bind_ok _ (tryCatch_ok _ hr)
  | error f w' =>
    refine ⟨.failed r, .inr rfl, ?_⟩
    rw [final_eq_error hr]
    exact final_bind_error _ (tryCatch_error _ hr)

/-- A key that does not read the history is left alone where the exit leaves it. -/
theorem acquiring_exit_leaves {K : Type} {key : World σ → K} {Q : K → Prop} {b : β}
    {e : Option (Exc ε)} (hkey : ∀ trace w, key { w with trace } = key w)
    (h : Leaves key Q (cm.exit b e)) : Leaves key Q ((acquiring r cm).exit b e) := by
  intro w hw
  obtain ⟨event, -, hfinal⟩ := acquiring_exit r cm b e w
  rw [hfinal, hkey]
  exact h w hw

/-- The same for its entry. -/
theorem acquiring_enter_leaves {K : Type} {key : World σ → K} {Q : K → Prop}
    (hkey : ∀ trace w, key { w with trace } = key w) (h : Leaves key Q cm.enter) :
    Leaves key Q (acquiring r cm).enter :=
  .bind h fun _ => .bind (.modify fun w _ => hkey _ w) fun _ => .pure _

theorem held_acquired {trace : List Event} (h : held trace = some rs) (hr : r ∉ rs) :
    held (trace ++ [.acquired r]) = some (r :: rs) := by
  simp [held_append, h, Event.next, hr]

theorem held_left {trace : List Event} {event : Event}
    (hevent : event = .released r ∨ event = .failed r) (h : held trace = some (r :: rs)) :
    held (trace ++ [event]) = some rs := by
  rcases hevent with rfl | rfl <;> simp [held_append, h, Event.next]

/-- A scope that restores whether a logger runtime is active. -/
structure Binds (ns : List Resource) (cm : Scope ε σ β) : Prop where
  error : ∀ w e w', Has ns (standing w) → cm.enter w = .error e w' → standing w' = standing w
  held : ∀ w b w', Has ns (standing w) → cm.enter w = .ok b w' → held w'.trace = held w.trace
  exit : ∀ w b w', Has ns (standing w) → cm.enter w = .ok b w' → ∀ e v, Has ns (standing v) →
    v.process.logger = w'.process.logger →
    standing (final (cm.exit b e) v) = (Lifespan.held v.trace, w.process.logger)

theorem Plain.binds (h : Plain ns cm) : Binds ns cm where
  error _ _ _ hw he := h.enter.of_error hw he
  held _ _ _ hw he := (Prod.ext_iff.mp (h.enter.of_ok hw he)).1
  exit _ b _ hw he e v hv hl := (h.exit b e v hv).trans
    (Prod.ext rfl (hl.trans (Prod.ext_iff.mp (h.enter.of_ok hw he)).2))

/-- **A scope is acquired, and left where it is the last one held.** -/
theorem Binds.opens (h : Binds ns cm) (hns : ns ⊆ rs) (hr : r ∉ rs)
    (hl : ∀ w b w', At rs (standing w) → cm.enter w = .ok b w' → .logger ∈ r :: rs →
      w'.process.logger = true) :
    Opens standing (At rs) (StackM.enter_context (acquiring r cm)) (At (r :: rs)) := by
  have entered (w : World σ) (b : β) (w' : World σ) (hw : At rs (standing w))
      (he : (acquiring r cm).enter w = .ok b w') : ∃ v, cm.enter w = .ok b v ∧
        standing w' = (some (r :: rs), v.process.logger) := by
    rw [acquiring_enter] at he
    cases hc : cm.enter w with
    | ok b' v =>
      rw [hc] at he
      cases he
      refine ⟨v, rfl, Prod.ext (held_acquired ?_ hr) rfl⟩
      exact (h.held w _ v (hw.has hns) hc).trans hw.1
    | error e v =>
      rw [hc] at he
      cases he
  refine .enter_context ⟨fun w e w' hw he => ?_, fun w b w' hw he e v hv => ?_⟩
    fun w b w' hw he => ?_
  · rw [acquiring_enter] at he
    cases hc : cm.enter w with
    | ok b v =>
      rw [hc] at he
      cases he
    | error _ _ =>
      rw [hc] at he
      cases he
      exact h.error w _ _ (hw.has hns) hc
  · obtain ⟨u, hu, hk⟩ := entered w b w' hw he
    rw [hk] at hv
    obtain ⟨hheld, hlogger⟩ := Prod.ext_iff.mp hv
    have hx := Prod.ext_iff.mp <| h.exit w b u (hw.has hns) hu e v
      ⟨_, hheld, fun a ha => List.mem_cons_of_mem _ (hns ha)⟩ hlogger
    obtain ⟨event, hevent, hfinal⟩ := acquiring_exit r cm b e v
    rw [hfinal]
    exact Prod.ext ((held_left hevent (hx.1.trans hheld)).trans hw.1.symm) hx.2
  · obtain ⟨u, hu, hk⟩ := entered w b w' hw he
    rw [hk]
    exact ⟨rfl, hl w b u hw hu⟩

theorem Plain.opens (h : Plain ns cm) (hns : ns ⊆ rs) (hr : r ∉ rs) (hl : r ≠ .logger) :
    Opens standing (At rs) (StackM.enter_context (acquiring r cm)) (At (r :: rs)) := by
  refine h.binds.opens hns hr fun w b w' hw he hm => ?_
  have hk := h.enter.of_ok (hw.has hns) he
  exact (Prod.ext_iff.mp hk).2.trans (hw.2 ((List.mem_cons.mp hm).resolve_left (Ne.symm hl)))

theorem raised_of_has (h : op.needs ⊆ ns) : Leaves standing (Has ns) (raised x op inFlight) :=
  standing_raised fun _ ⟨hs, hk, hn⟩ => .inr ⟨hs, hk, fun _ ha => hn (h ha)⟩

theorem plain_binding {bind : Process → Process} {restore : Process → Process → Process}
    (hb : ∀ p, (bind p).logger = p.logger) (hr : ∀ old p, (restore old p).logger = p.logger) :
    Plain ns (binding bind restore : Scope ε σ Process) where
  enter w _ := Prod.ext rfl (hb w.process)
  exit old _ w _ := Prod.ext rfl (hr old w.process)

theorem plain_pushed (h : op.needs ⊆ ns) : Plain ns (pushed x op) where
  enter _ _ := rfl
  exit _ _ := .bind (raised_of_has h) fun _ => .pure _

theorem plain_configuration_frame : Plain ns (configuration_frame x) where
  enter := raised_of_has (List.nil_subset _)
  exit _ _ := raised_of_has (List.nil_subset _)

theorem plain_worker_runtime (h : Op.open_runtime.needs ⊆ ns) : Plain ns (worker_runtime x) where
  enter := raised_of_has h
  exit _ _ := raised_of_has h

theorem plain_business_lifespan (h : serving ⊆ ns) : Plain ns (business_lifespan x) where
  enter := raised_of_has h
  exit _ _ := raised_of_has h

theorem raised_free (h : op.needs = []) : Leaves standing P (raised x op inFlight) :=
  standing_raised fun _ _ => .inl h

theorem verbose_enter {cli_verbose : Bool} :
    Leaves standing P (use_service_verbose x cli_verbose).enter := by
  unfold use_service_verbose
  refine .bind (.get_bind fun w => ?_) fun _ => .bind (.get_bind fun w => ?_) fun _ => ?_
  -- `file_policy`
  · split
    · exact raised_free rfl
    · exact .pure _
  -- `current_runtime`
  · split
    · exact .pure _
    · exact .throw _
  -- `pin`
  · refine .get_bind fun w => .bind (.modify fun _ _ => rfl) fun _ => .bind ?_ fun _ => .pure _
    exact .tryCatch (raised_free rfl) fun e => .bind (.modify fun _ _ => rfl) fun _ => .throw e

theorem verbose_exit {cli_verbose : Bool} {old : Option Bool} {e : Option (Exc ε)} :
    Leaves standing P ((use_service_verbose x cli_verbose).exit old e) := by
  unfold use_service_verbose
  refine .bind (.tryFinally (.bind (raised_free rfl) fun _ => .pure _) ?_) fun _ => .pure _
  exact .modify fun _ _ => rfl

/-- What is there when `use_logger_handler` is entered. -/
theorem logger_enter {w w' : World σ} {old : Bool}
    (h : (use_logger_handler x).enter w = .ok old w') : old = w.process.logger ∧
      w'.process.logger = true ∧ w'.trace = w.trace ++ [.called .open_logger] := by
  have h : EStateM.bind (call x .open_logger) _ w = _ := h
  simp only [EStateM.bind, call, raised_apply] at h
  cases hr : (x.run .open_logger none (w.outside, w.routes)).1 with
  | ok a =>
    rw [hr] at h
    cases h
    exact ⟨rfl, rfl, rfl⟩
  | error e =>
    rw [hr] at h
    cases h

theorem held_called {trace : List Event} {hs : List Resource} (h : held trace = some hs)
    (hn : op.needs ⊆ hs) : held (trace ++ [.called op]) = held trace := by
  simp [held_append, h, Event.next, hn]

theorem binds_use_logger_handler : Binds [.binding, .frame] (use_logger_handler x) where
  error w e w' hw he := by
    have h : EStateM.bind (call x .open_logger) _ w = _ := he
    simp only [EStateM.bind, call, raised_apply] at h
    obtain ⟨hs, hk, hn⟩ := hw
    cases hr : (x.run .open_logger none (w.outside, w.routes)).1 with
    | ok a =>
      rw [hr] at h
      cases h
    | error e =>
      rw [hr] at h
      cases h
      exact Prod.ext (held_called hk hn) rfl
  held w b w' hw he := by
    obtain ⟨hs, hk, hn⟩ := hw
    rw [(logger_enter he).2.2]
    exact held_called hk hn
  exit w b w' hw he e v hv hl := by
    obtain ⟨hs, hk, hn⟩ := hv
    obtain ⟨rfl, -, -⟩ := logger_enter he
    unfold use_logger_handler
    rw [Lib.Proc.final_tryFinally, final_raised]
    exact Prod.ext (held_called hk hn) rfl

theorem opens_logger (hns : [.binding, .frame] ⊆ rs) (hr : .logger ∉ rs) :
    Opens standing (At rs) (StackM.enter_context (acquiring .logger (use_logger_handler x)))
      (At (.logger :: rs)) :=
  binds_use_logger_handler.opens hns hr fun _ _ _ _ he _ => (logger_enter he).2.1

theorem call_at (h : op.needs ⊆ rs) :
    Opens standing (At rs) (StackM.lift (call x op)) (At rs) :=
  .lift <| (raised_of_has h).mono fun _ hk => hk.has (List.Subset.refl _)

end Held

/-! ## The business stack -/

section Business

variable {runtime : WorkerRuntime} {settings : Settings} {rs : List Resource}

theorem enter_business_opens : Opens standing (At serving) (enter_business x settings)
    fun k => At serving k ∨ At (.business :: serving) k := by
  unfold enter_business
  split
  · have hopen : Opens standing (At serving)
        (StackM.enter_context (acquiring .business (business_lifespan x)))
        (At (.business :: serving)) :=
      (plain_business_lifespan (List.Subset.refl _)).opens (List.Subset.refl _) (by decide) nofun
    exact (hopen.within verbose_enter (fun _ _ => verbose_exit) verbose_raises).mono
      (fun _ hk => hk) fun _ hk => .inr hk
  · exact (Opens.pure _).mono (fun _ hk => hk) fun _ hk => .inl hk

theorem require_one_worker_leaves {K : Type} {key : World σ → K} {Q : K → Prop}
    (configured : Option Int) : Leaves key Q (require_one_worker configured : M ε σ Unit) := by
  unfold require_one_worker
  split
  · exact .throw _
  · split
    · exact .pure _
    · exact .throw _

theorem background_opens (hserving : serving ⊆ rs) (hmanager : .manager ∉ rs) :
    Opens standing (At rs) (do start_background x runtime; StackM.lift (call x .serve))
      fun _ => True := by
  have hserve (rs) (h : serving ⊆ rs) :
      Opens standing (At rs) (StackM.lift (call x .serve)) fun _ => True :=
    (call_at h).mono (fun _ hk => hk) fun _ _ => trivial
  have hmore : serving ⊆ .manager :: rs := fun a ha => List.mem_cons_of_mem _ (hserving ha)
  have hpush : Opens standing (At rs) (StackM.enter_context (acquiring .manager
      (pushed x .manager_stop))) (At (.manager :: rs)) :=
    (plain_pushed hserving).opens (List.Subset.refl _) hmanager nofun
  unfold start_background
  split
  · refine .bind ?_ fun _ => hserve _ hmore
    refine .bind (.lift (require_one_worker_leaves _)) fun _ => ?_
    refine .bind (call_at hserving) fun _ => ?_
    refine .bind (.lift (.modify fun _ _ => rfl)) fun _ => ?_
    exact .bind hpush fun _ => call_at hmore
  · exact .bind (.pure _) fun _ => hserve rs hserving

theorem business_opens : Opens standing (At serving) (business x runtime settings)
    fun _ => True := by
  refine .bind enter_business_opens fun _ s hs => ?_
  rcases hs with hs | hs
  · exact background_opens (List.Subset.refl _) (by decide) s hs
  · exact background_opens (List.subset_cons_self _ _) (by decide) s hs

end Business

/-! ## What the scopes bind -/

section Bound

variable {β : Type} {cm : Scope ε σ β} {r : Resource} {P : Process → Prop} {op : Op}
variable {inFlight : Option (Exc ε)} {settings : Settings} {runtime : WorkerRuntime}

theorem process_raised : Leaves World.process P (raised x op inFlight) := by
  intro w _
  rw [final_raised]
  rfl

theorem process_acquiring (h : Restores World.process P cm) :
    Restores World.process P (acquiring r cm) where
  error w e w' hw he := by
    rw [acquiring_enter] at he
    cases hc : cm.enter w with
    | ok b v =>
      rw [hc] at he
      cases he
    | error _ _ =>
      rw [hc] at he
      cases he
      exact h.error w _ _ hw hc
  ok w b w' hw he e v hv := by
    rw [acquiring_enter] at he
    cases hc : cm.enter w with
    | ok _ u =>
      rw [hc] at he
      cases he
      obtain ⟨event, -, hfinal⟩ := acquiring_exit r cm b e v
      rw [hfinal]
      exact h.ok w b u hw hc e v hv
    | error _ _ =>
      rw [hc] at he
      cases he

theorem process_binding {bind : Process → Process} {restore : Process → Process → Process}
    (h : ∀ p, restore p (bind p) = p) :
    Restores World.process P (binding bind restore : Scope ε σ Process) where
  error w e w' _ he := by cases he
  ok w b w' _ he e v hv := by
    cases he
    exact (congrArg (restore w.process) hv).trans (h w.process)

theorem process_pushed : Restores World.process P (pushed x op) :=
  .of_leaves (.pure _) fun _ _ => .bind process_raised fun _ => .pure _

theorem process_logger : Restores World.process P (use_logger_handler x) where
  error w e w' _ he := by
    rcases bind_eq_error he with he | ⟨a, v, -, he⟩
    · exact process_raised.of_error (P := fun _ => True) trivial he
    · cases he
  ok w b w' _ he e v hv := by
    obtain ⟨a, u, hu, he⟩ := bind_eq_ok he
    have hp : u.process = w.process := process_raised.of_ok (P := fun _ => True) trivial hu
    cases he
    unfold use_logger_handler
    rw [Lib.Proc.final_tryFinally, final_raised]
    show { v.process with logger := u.process.logger } = w.process
    rw [hv, ← hp]

theorem process_file_policy {cli_verbose : Bool} :
    Leaves World.process P (file_policy x cli_verbose) := by
  refine .get_bind fun w => ?_
  split
  · exact process_raised
  · exact .pure _

theorem process_current_runtime : Leaves World.process P (current_runtime : M ε σ Unit) := by
  refine .get_bind fun w => ?_
  split
  · exact .pure _
  · exact .throw _

theorem pin_apply (file_enabled : Bool) (w : World σ) : ∃ v : World σ,
    v.process = { w.process with FILE_VERBOSE_CONTEXT := some file_enabled } ∧
    pin x file_enabled w =
      match (x.run .open_verbose none (w.outside, w.routes)).1 with
      | .ok _ => .ok w.process.FILE_VERBOSE_CONTEXT v
      | .error e => .error (.outside e) (setVerbose w.process.FILE_VERBOSE_CONTEXT v) := by
  let u := setVerbose (some file_enabled) w
  refine ⟨u.after .open_verbose (x.run .open_verbose none (w.outside, w.routes)).2, rfl, ?_⟩
  have hc : call x .open_verbose u = _ := raised_apply
  show (tryCatch (call x .open_verbose) _ >>= fun _ => pure _) u = _
  cases hr : (x.run .open_verbose none (w.outside, w.routes)).1 with
  | ok a =>
    have hr : (x.run .open_verbose none (u.outside, u.routes)).1 = .ok a := hr
    rw [hr] at hc
    show EStateM.bind _ _ u = _
    simp only [EStateM.bind, Lib.Proc.tryCatch_ok _ hc]
    rfl
  | error e =>
    have hr : (x.run .open_verbose none (u.outside, u.routes)).1 = .error e := hr
    rw [hr] at hc
    show EStateM.bind _ _ u = _
    simp only [EStateM.bind, Lib.Proc.tryCatch_error _ hc]
    rfl

theorem process_verbose {cli_verbose : Bool} :
    Restores World.process P (use_service_verbose x cli_verbose) where
  error w e w' _ he := by
    rcases bind_eq_error he with he | ⟨_, w₁, h₁, he⟩
    · exact process_file_policy.of_error (P := fun _ => True) trivial he
    have hw₁ : w₁.process = w.process := process_file_policy.of_ok (P := fun _ => True) trivial h₁
    rcases bind_eq_error he with he | ⟨_, w₂, h₂, he⟩
    · exact (process_current_runtime.of_error (P := fun _ => True) trivial he).trans hw₁
    have hw₂ : w₂.process = w₁.process :=
      process_current_runtime.of_ok (P := fun _ => True) trivial h₂
    obtain ⟨v, hv, hp⟩ := pin_apply (x := x) _ _
    rw [hp] at he
    split at he
    · cases he
    · cases he
      show { v.process with
        FILE_VERBOSE_CONTEXT := w₂.process.FILE_VERBOSE_CONTEXT } = w.process
      rw [hv, ← hw₁, ← hw₂]
  ok w b w' _ he e t ht := by
    obtain ⟨_, w₁, h₁, he⟩ := bind_eq_ok he
    obtain ⟨_, w₂, h₂, he⟩ := bind_eq_ok he
    have hw₂ : w₂.process = w.process :=
      (process_current_runtime.of_ok (P := fun _ => True) trivial h₂).trans
        (process_file_policy.of_ok (P := fun _ => True) trivial h₁)
    obtain ⟨v, hv, hp⟩ := pin_apply (x := x) _ _
    rw [hp] at he
    split at he
    · cases he
      have hx : Leaves World.process (fun _ => True)
          (discard (raised x .close_verbose e) : M ε σ PUnit) :=
        .bind process_raised fun _ => .pure _
      unfold use_service_verbose
      rw [final_bind_pure, Lib.Proc.final_tryFinally]
      show { (final _ t).process with
        FILE_VERBOSE_CONTEXT := w₂.process.FILE_VERBOSE_CONTEXT } = w.process
      rw [hx t trivial, ht, hv, ← hw₂]
    · cases he

/-- The business stack does not concern a key that its operations leave alone. -/
theorem business_quiet {K : Type} {key : World σ → K}
    (htrace : ∀ trace w, key { w with trace } = key w)
    (hmanager : ∀ w : World σ, key { w with attributes.background_manager := true } = key w)
    (hraised : ∀ op e, Leaves key (fun _ => True) (raised x op e))
    (hverbose : Restores key (fun _ => True) (use_service_verbose x settings.verbose)) :
    Quiet key (business x runtime settings) := by
  have hscope {β : Type} {cm : Scope ε σ β} {r : Resource}
      (he : Leaves key (fun _ => True) cm.enter)
      (hx : ∀ b e, Leaves key (fun _ => True) (cm.exit b e)) :
      Quiet key (StackM.enter_context (acquiring r cm)) :=
    .enter_context (acquiring_enter_leaves htrace he) fun b e =>
      acquiring_exit_leaves htrace (hx b e)
  refine .bind ?_ fun _ => .bind ?_ fun _ => .lift (hraised _ _)
  · unfold enter_business
    split
    · exact .within hverbose (hscope (hraised _ _) fun _ _ => hraised _ _)
    · exact .pure _
  · unfold start_background
    split
    · refine .bind (.lift (require_one_worker_leaves _)) fun _ => ?_
      refine .bind (.lift (hraised _ _)) fun _ => ?_
      refine .bind (.lift (.modify fun w _ => hmanager w)) fun _ => ?_
      refine .bind (hscope (.pure _) fun _ _ => ?_) fun _ => .lift (hraised _ _)
      exact .bind (hraised _ _) fun _ => .pure _
    · exact .pure _

theorem business_process : Quiet World.process (business x runtime settings) :=
  business_quiet (fun _ _ => rfl) (fun _ => rfl) (fun _ _ => process_raised) process_verbose

/-- The end of the business stack leaves what its exits leave. -/
theorem leaving_leaves {K : Type} {key : World σ → K}
    (hverbose : Restores key (fun _ => True) (use_service_verbose x settings.verbose))
    {q : M ε σ (Option Unit)} (hq : Leaves key (fun _ => True) q) :
    Leaves key (fun _ => True) (leaving x settings q) :=
  .bind (hverbose.within fun _ => hq) fun _ => .pure _

end Bound

/-- `use_verbose` starts, and the cached target is read. -/
def Pins (x : Outside ε σ) : Prop :=
  ∀ op ∈ [Op.snapshot, .open_verbose], ∀ e state, ∃ a, (x.run op e state).1 = .ok a

section Wrapped

variable {settings : Settings} {runtime : WorkerRuntime}

theorem raised_ok {op : Op} {e : Option (Exc ε)} {w : World σ}
    (h : ∃ a, (x.run op e (w.outside, w.routes)).1 = .ok a) :
    ∃ a w', raised x op e w = .ok a w' := by
  obtain ⟨a, h⟩ := h
  exact ⟨a, _, by rw [raised_apply, h]⟩

/-- `use_service_verbose` is entered wherever a logger runtime is active. -/
theorem verbose_enters (hpins : Pins x) (cli_verbose : Bool) {w : World σ}
    (hl : w.process.logger = true) :
    ∃ old w', (use_service_verbose x cli_verbose).enter w = .ok old w' := by
  have hpolicy : ∃ v w', file_policy x cli_verbose w = .ok v w' := by
    unfold file_policy
    rw [Lib.Proc.get_bind_apply]
    split
    · exact raised_ok (hpins .snapshot (by simp) none _)
    · exact ⟨_, _, rfl⟩
  obtain ⟨v, w₁, h₁⟩ := hpolicy
  have hw₁ : w₁.process = w.process := process_file_policy.of_ok (P := fun _ => True) trivial h₁
  have hruntime : (current_runtime : M ε σ Unit) w₁ = .ok () w₁ := by
    unfold current_runtime
    rw [Lib.Proc.get_bind_apply, hw₁, if_pos hl]
    rfl
  obtain ⟨w₂, -, hp⟩ := pin_apply (x := x) v w₁
  obtain ⟨a, ha⟩ := hpins .open_verbose (by simp) none (w₁.outside, w₁.routes)
  rw [ha] at hp
  refine ⟨w₁.process.FILE_VERBOSE_CONTEXT, w₂, ?_⟩
  show (file_policy x cli_verbose >>= fun v => current_runtime >>= fun _ => pin x v) w = _
  rw [bind_ok_apply _ h₁, bind_ok_apply _ hruntime, hp]

theorem leaving_wraps (hpins : Pins x) :
    Wraps standing (fun w : World σ => w.process.logger = true) (leaving x settings) := by
  intro q w hl
  obtain ⟨old, w', h⟩ := verbose_enters hpins settings.verbose hl
  refine ⟨w', verbose_enter.of_ok (P := fun _ => True) trivial h, ?_⟩
  unfold leaving
  rw [final_bind_pure]
  show standing (final ((use_service_verbose x settings.verbose).enter >>= _) w) = _
  rw [Lib.Proc.final_bind_ok _ h]
  obtain ⟨r, hr⟩ := outcome_bind_apply (p := q) (s := w')
    ((use_service_verbose x settings.verbose).exit old).leave
  rw [Lib.Proc.final_congr hr]
  exact Closes.leave (fun _ v hv => (verbose_exit (P := fun _ => True) v trivial).trans hv) r rfl

/-- The business stack releases what it has acquired. -/
theorem closing_standing (hpins : Pins x) : Leaves standing (At serving)
    (closing (leaving x settings) (business x runtime settings)) :=
  closing_leaves business_opens (fun w hw =>
    (congrArg Process.logger (business_process w).1).trans (hw.2 (by decide))) (leaving_wraps hpins)

theorem ofResult_leaves {K : Type} {key : World σ → K} {P : K → Prop} {α : Type}
    (result : Render.Result α) : Leaves key P (ofResult result : M ε σ α) := by
  cases result with
  | ok a => exact .pure a
  | error message => exact .throw _

/-- A property of the lifespan's `try`, but for its operations and its exit stack. -/
theorem serveApplication_leaves {K : Type} {key : World σ → K} {P : K → Prop}
    (hstart : Leaves key P (call x .sampler_start))
    (hmodify : ∀ title version routes w, key { w with title, version, routes } = key w)
    (hwith : Leaves key P ((use_service_verbose x settings.verbose).within fun _ => pure ()))
    (hclosing : Leaves key P (closing (leaving x settings) (business x runtime settings))) :
    Leaves key P (serveApplication x runtime settings) := by
  unfold serveApplication
  refine .bind hstart fun _ => ?_
  refine .bind (.modify fun w _ => hmodify _ _ _ w) fun _ => ?_
  -- the two registrations of routes
  refine .get_bind fun w => .bind (ofResult_leaves _) fun _ => ?_
  refine .bind (.modify fun w _ => hmodify _ _ _ w) fun _ => ?_
  refine .get_bind fun w => .bind (ofResult_leaves _) fun _ => ?_
  refine .bind (.modify fun w _ => hmodify _ _ _ w) fun _ => ?_
  refine .bind hwith fun _ => ?_
  exact .bind hclosing fun _ => .pure _

theorem serveApplication_standing (hpins : Pins x) :
    Leaves standing (At serving) (serveApplication x runtime settings) := by
  refine serveApplication_leaves (standing_raised fun _ hk => .inr (hk.has (by decide)))
    (fun _ _ _ _ => rfl) ?_ (closing_standing hpins)
  exact (Restores.of_leaves verbose_enter fun _ _ => verbose_exit).within fun _ => .pure _

theorem serveApplication_process :
    Leaves World.process (fun _ => True) (serveApplication x runtime settings) :=
  serveApplication_leaves process_raised (fun _ _ _ _ => rfl)
    (process_verbose.within fun _ => .pure _)
    (business_process.closing fun _ hq => leaving_leaves process_verbose hq)

end Wrapped

/-! ## The lifespan -/

section Whole

variable {original_routes : List Route}

variable {frame : Nat} {runtime : WorkerRuntime} {settings : Settings}

/-- A property of `assign`, but for its operation. -/
theorem assign_leaves {K : Type} {key : World σ → K} {P : K → Prop}
    (hidentity : ∀ v w, key { w with attributes.worker_identity := v } = key w)
    (hrequests : ∀ v w, key { w with attributes.worker_requests := v } = key w)
    (hsampler : ∀ w, P (key w) → key { w with attributes.health_sampler := true } = key w)
    (hgenerator : Leaves key P (call x .generator)) :
    Leaves key P (assign x frame runtime settings) := by
  refine .bind (.modify fun w _ => hidentity _ w) fun _ => ?_
  refine .bind hgenerator fun _ => ?_
  refine .bind ?_ fun _ => .bind (.modify fun w _ => hrequests _ w) fun _ => ?_
  · unfold encode_ascii
    split
    · exact .pure _
    · exact .throw _
  · refine .bind ?_ fun _ => .modify hsampler
    unfold HealthSampler
    split
    · exact .pure _
    · exact .throw _

theorem resources_standing (hpins : Pins x) :
    Opens standing (At []) (resources x original_routes) fun _ => True := by
  -- the scopes that bind something run wherever they are entered
  have hbinds {bind : Process → Process} {restore : Process → Process → Process} {r : Resource}
      {rs : List Resource} (hb : ∀ p, (bind p).logger = p.logger)
      (hr : ∀ old p, (restore old p).logger = p.logger) (hnew : r ∉ rs) (hl : r ≠ .logger) :
      Opens standing (At rs)
        (StackM.enter_context (acquiring r (binding bind restore) : Scope ε σ Process))
        (At (r :: rs)) :=
    (plain_binding hb hr).opens (List.nil_subset _) hnew hl
  have hverbose (cli_verbose : Bool) : Plain [] (use_service_verbose x cli_verbose) :=
    ⟨verbose_enter, fun _ _ => verbose_exit⟩
  have hruntime : Plain Op.open_runtime.needs (worker_runtime x) :=
    plain_worker_runtime (List.Subset.refl _)
  have hsampler : Plain Op.sampler_stop.needs (pushed x .sampler_stop) :=
    plain_pushed (List.Subset.refl _)
  unfold resources
  -- the frame and what is read from it
  refine .bind (plain_configuration_frame.opens (List.nil_subset _) (by decide) nofun)
    fun frame => ?_
  refine .bind (hbinds (fun _ => rfl) (fun _ _ => rfl) (by decide) nofun) fun _ => ?_
  refine .bind (call_at (by decide)) fun settings => ?_
  refine .bind (call_at (by decide)) fun _ => ?_
  refine .bind (call_at (by decide)) fun _ => ?_
  -- the logger runtime and its filters
  refine .bind (opens_logger (by decide) (by decide)) fun _ => ?_
  refine .bind (call_at (by decide)) fun _ => ?_
  refine .bind (hbinds (fun _ => rfl) (fun _ _ => rfl) (by decide) nofun) fun _ => ?_
  refine .bind (hbinds (fun _ => rfl) (fun _ _ => rfl) (by decide) nofun) fun _ => ?_
  -- the worker and its file control
  refine .bind (hruntime.opens (by decide) (by decide) nofun) fun runtime => ?_
  refine .bind (call_at (by decide)) fun control => ?_
  refine .bind (hbinds (fun _ => rfl) (fun _ _ => rfl) (by decide) nofun) fun _ => ?_
  refine .bind (call_at (by decide)) fun _ => ?_
  refine .bind ((hverbose _).opens (List.nil_subset _) (by decide) nofun) fun _ => ?_
  -- the attributes, and the `try`
  refine .bind (.lift ?_) fun _ => ?_
  · refine assign_leaves (fun _ _ => rfl) (fun _ _ => rfl) (fun _ _ => rfl) ?_
    exact standing_raised fun _ hk => .inr (hk.has (by decide))
  refine .bind (hsampler.opens (by decide) (by decide) nofun) fun _ => ?_
  refine .mono (.lift ?_) (fun _ hk => hk) fun _ _ => trivial
  exact .tryFinally (serveApplication_standing hpins) (.modify fun _ _ => rfl)

theorem entering_process {β : Type} {cm : Scope ε σ β} {r : Resource}
    (h : Restores World.process (fun _ => True) cm) :
    Opens World.process (fun _ => True) (StackM.enter_context (acquiring r cm)) fun _ => True :=
  .enter_context (process_acquiring h) fun _ _ _ _ _ => trivial

theorem resources_process :
    Opens World.process (fun _ => True) (resources x original_routes) fun _ => True := by
  have hcall (op : Op) :
      Opens World.process (fun _ => True) (StackM.lift (call x op)) fun _ => True :=
    .lift process_raised
  have hframe : Restores World.process (fun _ => True) (configuration_frame x) :=
    .of_leaves process_raised fun _ _ => process_raised
  have hruntime : Restores World.process (fun _ => True) (worker_runtime x) :=
    .of_leaves process_raised fun _ _ => process_raised
  have hfilters (p : Process) (n : Nat) :
      { p with worker_filters := p.worker_filters + n - n } = p := by
    rw [Nat.add_sub_cancel]
  have hdisabled (p : Process) : (fun n => if n ∈ accessLoggers then p.disabled n
      else decide (n ∈ accessLoggers) || p.disabled n) = p.disabled := by
    funext n
    by_cases hn : n ∈ accessLoggers <;> simp [hn]
  unfold resources
  -- the frame and what is read from it
  refine .bind (entering_process hframe) fun frame => ?_
  refine .bind (entering_process (process_binding fun _ => rfl)) fun _ => ?_
  refine .bind (hcall _) fun settings => ?_
  refine .bind (hcall _) fun _ => ?_
  refine .bind (hcall _) fun _ => ?_
  -- the logger runtime and its filters
  refine .bind (entering_process process_logger) fun _ => ?_
  refine .bind (hcall _) fun _ => ?_
  refine .bind (entering_process (process_binding fun p => hfilters p _)) fun _ => ?_
  refine .bind (entering_process (process_binding fun p => ?_)) fun _ => ?_
  · simp only [hdisabled]
  -- the worker and its file control
  refine .bind (entering_process hruntime) fun runtime => ?_
  refine .bind (hcall _) fun control => ?_
  refine .bind (entering_process (process_binding fun _ => rfl)) fun _ => ?_
  refine .bind (hcall _) fun _ => ?_
  refine .bind (entering_process process_verbose) fun _ => ?_
  -- the attributes, and the `try`
  refine .bind (.lift ?_) fun _ => ?_
  · exact assign_leaves (fun _ _ => rfl) (fun _ _ => rfl) (fun _ _ => rfl) process_raised
  refine .bind (entering_process process_pushed) fun _ => ?_
  exact .lift (.tryFinally serveApplication_process (.modify fun _ _ => rfl))

section Application

variable {K : Type} {f : Attributes → List Route → K} {P : K → Prop}

/-- A key of what the lifespan leaves in the application. -/
def application (f : Attributes → List Route → K) (w : World σ) : K := f w.attributes w.routes

theorem application_raised {op : Op} {inFlight : Option (Exc ε)} (h : op.user = false) :
    Leaves (application f) P (raised x op inFlight) := by
  intro w _
  rw [final_raised]
  simp only [application, World.after, h]
  rfl

theorem entering_application {β : Type} {cm : Scope ε σ β} {r : Resource}
    (he : Leaves (application f) P cm.enter)
    (hx : ∀ b e, Leaves (application f) (fun _ => True) (cm.exit b e)) :
    Opens (application f) P (StackM.enter_context (acquiring r cm)) P := by
  have henter : Leaves (application f) P (acquiring r cm).enter :=
    acquiring_enter_leaves (fun _ _ => rfl) he
  refine .enter_context (.of_leaves henter fun b e => ?_) fun w b w' hw hr => ?_
  · exact acquiring_exit_leaves (fun _ _ => rfl) (hx b e)
  · exact (henter.of_ok hw hr).symm ▸ hw

theorem binding_application {r : Resource} {bind : Process → Process}
    {restore : Process → Process → Process} :
    Opens (application f) P
      (StackM.enter_context (acquiring r (binding bind restore) : Scope ε σ Process)) P :=
  entering_application (fun _ _ => rfl) fun _ _ _ _ => rfl

theorem verbose_enter_application {cli_verbose : Bool} :
    Leaves (application f) P (use_service_verbose x cli_verbose).enter := by
  have hset (v : Option Bool) :
      Leaves (application f) P (modify (setVerbose v) : M ε σ PUnit) := .modify fun _ _ => rfl
  refine .bind (.get_bind fun w => ?_) fun _ => .bind (.get_bind fun w => ?_) fun _ => ?_
  · split
    · exact application_raised rfl
    · exact .pure _
  · split
    · exact .pure _
    · exact .throw _
  · refine .get_bind fun w => .bind (hset _) fun _ => .bind ?_ fun _ => .pure _
    exact .tryCatch (application_raised rfl) fun e => .bind (hset _) fun _ => .throw e

theorem verbose_exit_application {cli_verbose : Bool} {old : Option Bool} {e : Option (Exc ε)} :
    Leaves (application f) P ((use_service_verbose x cli_verbose).exit old e) := by
  refine .bind (.tryFinally ?_ (.modify fun _ _ => rfl)) fun _ => .pure _
  exact .bind (application_raised rfl) fun _ => .pure _

/-- The outer stack up to the attributes leaves the application alone. -/
theorem resources_application (hend : ∀ frame runtime (settings : Accepted),
      Opens (application f) P
        (StackM.lift (assign x frame runtime settings.val) >>= fun _ =>
          StackM.enter_context (acquiring .sampler (pushed x .sampler_stop)) >>= fun _ =>
          StackM.lift (tryFinally (serveApplication x runtime settings.val)
            (modify (clear original_routes)))) fun _ => True) :
    Opens (application f) P (resources x original_routes) fun _ => True := by
  have hcall {op : Op} (h : op.user = false) :
      Opens (application f) P (StackM.lift (call x op)) P := .lift (application_raised h)
  have hraised {op : Op} (h : op.user = false) {Q : K → Prop} {inFlight : Option (Exc ε)} :
      Leaves (application f) Q (raised x op inFlight) := application_raised h
  have hlogger : Leaves (application f) P (use_logger_handler x).enter :=
    .bind (application_raised rfl) fun _ => .get_bind fun _ => .bind (.modify fun _ _ => rfl)
      fun _ => .pure _
  unfold resources
  -- the frame and what is read from it
  refine .bind (entering_application (hraised rfl) fun _ _ => hraised rfl) fun frame => ?_
  refine .bind binding_application fun _ => ?_
  refine .bind (hcall rfl) fun settings => ?_
  refine .bind (hcall rfl) fun _ => ?_
  refine .bind (hcall rfl) fun _ => ?_
  -- the logger runtime and its filters
  refine .bind (entering_application hlogger fun _ _ => ?_) fun _ => ?_
  · exact .tryFinally (hraised rfl) (.modify fun _ _ => rfl)
  refine .bind (hcall rfl) fun _ => ?_
  refine .bind binding_application fun _ => ?_
  refine .bind binding_application fun _ => ?_
  -- the worker and its file control
  refine .bind (entering_application (hraised rfl) fun _ _ => hraised rfl) fun runtime => ?_
  refine .bind (hcall rfl) fun control => ?_
  refine .bind binding_application fun _ => ?_
  refine .bind (hcall rfl) fun _ => ?_
  refine .bind (entering_application verbose_enter_application fun _ _ =>
    verbose_exit_application) fun _ => ?_
  exact hend frame runtime settings

end Application

theorem ascii_of_isAlphanum {c : Char} (h : c.isAlphanum = true) : c.toNat < 128 := by
  have below (d : Char) (hd : d.toNat < 128) (h : c.val ≤ d.val) : c.toNat < 128 :=
    Nat.lt_of_le_of_lt (UInt32.le_iff_toNat_le.mp h) hd
  rcases Bool.or_eq_true_iff.mp h with h | h
  · rcases Bool.or_eq_true_iff.mp h with h | h
    · exact below 'Z' (by decide) (of_decide_eq_true h).2
    · exact below 'z' (by decide) (of_decide_eq_true (Bool.and_eq_true_iff.mp h).2)
  · exact below '9' (by decide) (of_decide_eq_true (Bool.and_eq_true_iff.mp h).2)

theorem ascii_of_isToken {c : Char} (h : Config.isToken c = true) : c.toNat < 128 := by
  rcases Bool.or_eq_true_iff.mp h with h | h
  · exact ascii_of_isAlphanum h
  · have hall : "!#$%&'*+-.^_`|~".toList.all (·.toNat < 128) = true := by decide
    exact of_decide_eq_true (List.all_eq_true.mp hall c (List.contains_iff_mem.mp h))

theorem ascii_toLower {c : Char} (h : c.toNat < 128) : c.toLower.toNat < 128 := by
  have hall : ∀ n : Fin 128, (Char.ofNat n).toLower.toNat < 128 := by decide
  have hc := hall ⟨c.toNat, h⟩
  rwa [Char.ofNat_toNat] at hc

/-- A settings record has an ASCII header name and a sampling interval. -/
theorem settings_header {get : String → Render.Result Config.Value}
    {urlsplit : String → Render.Result Config.SplitResult} {resolve : String → String}
    (h : settings_from_frame get urlsplit resolve = .ok settings) :
    settings.id_header.toList.all Config.isToken = true ∧ 0 < settings.sample_interval_seconds := by
  -- up to `worker_id_count`
  iterate 5 obtain ⟨_, -, h⟩ := Render.bind_ok h
  obtain ⟨value, -, h⟩ := Render.bind_ok h
  obtain ⟨interval, hinterval, h⟩ := Render.bind_ok h
  -- the paths, the header and the directories
  iterate 5 obtain ⟨_, -, h⟩ := Render.bind_ok h
  obtain ⟨_, htoken, h⟩ := Render.bind_ok h
  iterate 19 obtain ⟨_, -, h⟩ := Render.bind_ok h
  cases h
  refine ⟨Render.require_ok htoken, ?_⟩
  unfold Config.sample_interval at hinterval
  cases value with
  | int n =>
    simp only at hinterval
    split at hinterval
    · cases hinterval
    · split at hinterval
      · rename_i hn
        cases hinterval
        exact Int.cast_pos.mpr hn
      · cases hinterval
  | float y =>
    simp only at hinterval
    split at hinterval
    · rename_i hy
      cases hinterval
      exact hy
    · cases hinterval
  | _ => cases hinterval

theorem accepted (settings : Accepted) :
    settings.val.id_header.toLower.toList.all (·.toNat < 128) = true ∧
      0 < settings.val.sample_interval_seconds := by
  obtain ⟨settings, get, urlsplit, resolve, h⟩ := settings
  obtain ⟨htoken, hinterval⟩ := settings_header h
  refine ⟨List.all_eq_true.mpr fun c hc => ?_, hinterval⟩
  have hlower : settings.id_header.toLower.toList = settings.id_header.toList.map Char.toLower :=
    String.toList_map
  rw [hlower] at hc
  obtain ⟨d, hd, rfl⟩ := List.mem_map.mp hc
  exact decide_eq_true (ascii_toLower (ascii_of_isToken (List.all_eq_true.mp htoken d hd)))

theorem assign_ok (hgenerator : ∀ e state, ∃ a, (x.run .generator e state).1 = .ok a)
    (frame : Nat) (runtime : WorkerRuntime) (settings : Accepted) (w : World σ) :
    ∃ w', assign x frame runtime settings.val w = .ok () w' := by
  obtain ⟨hheader, hinterval⟩ := accepted settings
  unfold assign
  rw [Lib.Proc.modify_bind_apply]
  obtain ⟨a, w₁, h₁⟩ := raised_ok (w := { w with attributes.worker_identity := some runtime })
    (hgenerator none _)
  refine (bind_ok_apply _ h₁).symm ▸ ?_
  unfold encode_ascii HealthSampler
  rw [if_pos hheader, if_pos hinterval]
  exact ⟨_, rfl⟩

/-- What is as before a lifespan. -/
def bare (a : Attributes) (routes : List Route) :
    Option WorkerRuntime × Option RequestRuntime × Bool × List Route :=
  (a.worker_identity, a.worker_requests, a.background_manager, routes)

/-- Nothing raises between the assignment of the attributes and the `try` that clears them. -/
theorem assigned_settles (hgenerator : ∀ e state, ∃ a, (x.run .generator e state).1 = .ok a)
    (settings : Accepted) :
    Settles (application bare) (none, none, false, original_routes)
      (StackM.lift (assign x frame runtime settings.val) >>= fun _ =>
        StackM.enter_context (acquiring .sampler (pushed x .sampler_stop)) >>= fun _ =>
        StackM.lift (tryFinally (serveApplication x runtime settings.val)
          (modify (clear original_routes)))) := by
  refine .after (fun w => ?_) (fun w exit h => ?_) fun _ => ?_
  · obtain ⟨w', h⟩ := assign_ok hgenerator frame runtime settings w
    exact ⟨(), by simp only [StackM.lift, h]⟩
  · rw [lift_snd] at h
    exact absurd h List.not_mem_nil
  refine .after (fun w => ⟨(), rfl⟩) (fun w exit h e => ?_) fun _ => ?_
  · rw [List.mem_singleton.mp h]
    refine acquiring_exit_leaves (fun _ _ => rfl) ?_
    exact .bind (application_raised rfl) fun _ => .pure _
  · refine .lift fun w => ?_
    rw [Lib.Proc.final_tryFinally]
    rfl

/-- Whether there is a sampler. -/
def sampled (a : Attributes) (_ : List Route) : Bool := a.health_sampler

theorem sampled_raised {Q : Bool → Prop} {op : Op} {inFlight : Option (Exc ε)} :
    Leaves (application sampled) Q (raised x op inFlight) := by
  intro w _
  rw [final_raised]
  rfl

theorem serveApplication_sampled :
    Leaves (application sampled) (fun _ => True) (serveApplication x runtime settings) := by
  have hverbose : Restores (application sampled) (fun _ => True)
      (use_service_verbose x settings.verbose) :=
    .of_leaves verbose_enter_application fun _ _ => verbose_exit_application
  have hquiet : Quiet (application sampled) (business x runtime settings) :=
    business_quiet (fun _ _ => rfl) (fun _ => rfl) (fun _ _ => sampled_raised) hverbose
  exact serveApplication_leaves sampled_raised (fun _ _ _ _ => rfl)
    (hverbose.within fun _ => .pure _) (hquiet.closing fun _ hq => leaving_leaves hverbose hq)

/-- A sampler is never reset. -/
theorem assigned_sampled (settings : Accepted) :
    Opens (application sampled) (fun there => there = true)
      (StackM.lift (assign x frame runtime settings.val) >>= fun _ =>
        StackM.enter_context (acquiring .sampler (pushed x .sampler_stop)) >>= fun _ =>
        StackM.lift (tryFinally (serveApplication x runtime settings.val)
          (modify (clear original_routes)))) fun _ => True := by
  have hstop : Leaves (application sampled) (fun _ => True)
      (do let _ ← call x .sampler_stop; return false : M ε σ Bool) :=
    .bind sampled_raised fun _ => .pure _
  have hbody : Leaves (application sampled) (fun there => there = true)
      (tryFinally (serveApplication x runtime settings.val) (modify (clear original_routes))) :=
    .tryFinally (serveApplication_sampled.mono fun _ _ => trivial) (.modify fun _ _ => rfl)
  refine .bind (.lift ?_) fun _ => ?_
  · exact assign_leaves (fun _ _ => rfl) (fun _ _ => rfl) (fun _ h => h.symm) sampled_raised
  refine .bind (entering_application (.pure _) fun _ _ => hstop) fun _ => ?_
  exact .mono (.lift hbody) (fun _ hk => hk) fun _ _ => trivial

end Whole

/-- Everything that was acquired has been left, and the rest is as before. -/
structure Unwound (w w' : World σ) : Prop where
  held : held w'.trace = some []
  process : w'.process = w.process
  worker_identity : w'.attributes.worker_identity = none
  worker_requests : w'.attributes.worker_requests = none
  background_manager : w'.attributes.background_manager = false
  /-- The sampler of an earlier lifespan, or of this one, stays. -/
  health_sampler : w.attributes.health_sampler = true → w'.attributes.health_sampler = true
  routes : w'.routes = w.routes

/-- The statements before the outer stack. -/
theorem worker_lifespan_leaves {K : Type} {key : World σ → K} {P : K → Prop}
    (hresolve : Leaves key P (call x .resolve))
    (h : ∀ w, P (key w) → key (final (exitStack (resources x w.routes)) w) = key w) :
    Leaves key P (worker_lifespan x) := by
  refine .bind ?_ fun _ => .bind hresolve fun _ w hw => ?_
  · unfold configured
    split
    · exact .pure _
    · exact .throw _
  · rw [Lib.Proc.final_get_bind]
    exact h w hw

/-- **However the lifespan of a worker ends, it has left what it acquired, each once and in reverse
order, and the process and the application are as before.** -/
theorem lifespan_unwinds (hpins : Pins x)
    (hgenerator : ∀ e state, ∃ a, (x.run .generator e state).1 = .ok a) (w : World σ)
    (hheld : held w.trace = some []) (hidentity : w.attributes.worker_identity = none)
    (hrequests : w.attributes.worker_requests = none)
    (hmanager : w.attributes.background_manager = false) :
    Unwound w (final (worker_lifespan x) w) := by
  have hstanding : Leaves standing (At []) (worker_lifespan x) :=
    worker_lifespan_leaves (raised_free rfl) fun w hw =>
      exitStack_leaves (resources_standing hpins) w hw
  have hbare : Leaves (application bare) (fun k => k = (none, none, false, w.routes))
      (worker_lifespan x) :=
    worker_lifespan_leaves (application_raised rfl) fun v hv => by
      have hroutes : v.routes = w.routes := congrArg (fun k => k.2.2.2) hv
      rw [hroutes]
      exact exitStack_leaves (resources_application fun _ _ settings =>
        (assigned_settles hgenerator settings).opens) v hv
  have hsampled : Leaves (application sampled) (fun there => there = true) (worker_lifespan x) :=
    worker_lifespan_leaves sampled_raised fun v hv =>
      exitStack_leaves (resources_application fun _ _ => assigned_sampled) v hv
  have hbefore : application bare w = (none, none, false, w.routes) := by
    rw [application, bare, hidentity, hrequests, hmanager]
  have hafter : application bare (final (worker_lifespan x) w) = (none, none, false, w.routes) :=
    (hbare w hbefore).trans hbefore
  exact {
    held := (Prod.ext_iff.mp (hstanding w ⟨hheld, nofun⟩)).1.trans hheld
    process := worker_lifespan_leaves (P := fun _ => True) process_raised
      (fun w _ => exitStack_leaves resources_process w trivial) w trivial
    worker_identity := congrArg (fun k => k.1) hafter
    worker_requests := congrArg (fun k => k.2.1) hafter
    background_manager := congrArg (fun k => k.2.2.1) hafter
    health_sampler := fun h => (hsampled w h).trans h
    routes := congrArg (fun k => k.2.2.2) hafter }

/-! ### A lifespan that is cancelled while it serves -/

/-- Every operation returns, but for `serve`, and the end of the business lifespan. -/
def cancelled : Outside String Unit where
  config_path := some "service.lclcfg"
  environ := none
  getpid := 7
  business_lifespan := true
  background_workers := true
  compile_path _ := .ok ()
  run op _ state := match op with
    | .open_frame => (.ok 0, state)
    | .settings_from_frame =>
      (.ok ⟨Config.defaultSettings, _, _, _, Config.settings_from_defaults⟩, state)
    | .open_runtime => (.ok ⟨0, some 1⟩, state)
    | .file_control => (.ok ⟨7⟩, state)
    | .snapshot | .close_frame | .close_logger | .close_runtime => (.ok false, state)
    | .serve => (.error "cancelled", state)
    | .business_exit => (.error "closed twice", state)
    | .resolve | .worker_policies | .logger_config | .open_logger | .install | .get_logger
    | .open_verbose | .close_verbose | .generator | .sampler_start | .sampler_stop
    | .business_enter | .journal | .manager_start | .manager_stop => (.ok (), state)

def started : World Unit where
  outside := ()
  trace := []
  process := ⟨none, none, none, fun _ => false, false, 0⟩
  attributes := ⟨none, none, false, false⟩
  routes := []
  title := "FastAPI"
  version := "0.1.0"

theorem lifespan_unwinds_cancelled :
    Unwound started (final (worker_lifespan cancelled) started) := by
  refine lifespan_unwinds (fun op h e state => ?_) (fun _ _ => ⟨(), rfl⟩) started rfl rfl rfl rfl
  rcases List.mem_cons.mp h with rfl | h
  · exact ⟨false, rfl⟩
  · obtain rfl := List.mem_singleton.mp h
    exact ⟨(), rfl⟩

end LclFastapi.Lifespan
