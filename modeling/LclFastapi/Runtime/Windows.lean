import LclFastapi.Runtime.Deadlines
import Mathlib.Tactic.IntervalCases

/-!
# Shutdown of the native workers on Windows (`runtime/windows.py`)

`ServiceMultiprocess` over the controller: `terminate_all` arms deadlines for the *observed*
workers, then publishes the marker; `join_all` waits for the *native* processes, with a
`background_tick` before each wait. Each step of the manager is a step of the controller, one of
its environment when the manager moves alone (`Step.controller`).

* `PC.after` is the manager's place after a step of the controller. Where `join_all` waits, time
  passes and processes die, start and publish.
* In the serving loop the manager calls the controller as it likes, and replaces dead processes.

**`covered_of_observed`**: if each native process is observed while `terminate_all` looks, or is
armed already, then a deadline covers each as long as `join_all` waits for it, and a tick
past `graceful_timeout_seconds` selects it. **`unpublished_uncovered`**: a process that has not
published yet is not covered.
-/

namespace LclFastapi.Runtime.Windows

open Lib (Dict Identity Processes Run)

/-! ## The manager -/

/-- Where the manager is. -/
inductive PC where
  /-- In the serving loop. -/
  | serving
  /-- In `controller_retiring()`. -/
  | retiring
  /-- About to publish `shutdown.json`. -/
  | marking
  /-- In `join_all`, about to look whether the first process is alive. -/
  | joining (todo : List Identity)
  /-- In `controller_background_tick()`. -/
  | ticking (todo : List Identity)
  /-- In `process.join(timeout=0.05)`. -/
  | waiting (todo : List Identity)
  | done
  | raised

structure State where
  controller : Controller.State
  /-- The native `self.processes`. -/
  processes : List Identity
  /-- `shutdown.json`. -/
  shutdown : Stored
  pc : PC

/-- The manager serves. -/
structure Init (s : State) : Prop where
  controller : Controller.Init s.controller
  pc : s.pc = .serving

/-- The manager's place after a step of the controller. -/
def PC.after : PC → Controller.Label → Option PC
  | pc, .environment => some pc
  | .serving, .retire none => some .retiring
  | .serving, _ => some .serving
  | .retiring, .inner | .retiring, .arm _ => some .retiring
  | .retiring, .retired => some .marking
  | .retiring, .retireRaise => some .raised
  | .ticking todo, .ret => some (if todo = [] then .done else .waiting todo)
  | .ticking _, .raise | .ticking _, .denied => some .raised
  | .ticking todo, .read _ | .ticking todo, .inner | .ticking todo, .drop _
  | .ticking todo, .select _ | .ticking todo, .log _ _ | .ticking todo, .attempt _
  | .ticking todo, .signal _ => some (.ticking todo)
  | _, _ => none

variable (graceful_timeout_seconds : ℚ) (service_id : Value)

inductive Step : State → Controller.Label → State → Prop
  /-- A step of the controller, or of its environment. -/
  | controller (s : State) (l : Controller.Label) (c : Controller.State) (pc : PC)
      (h : Controller.Step graceful_timeout_seconds service_id s.controller l c)
      (hpc : s.pc.after l = some pc) : Step s l { s with controller := c, pc := pc }
  /-- `super().keep_subprocess_alive()`. -/
  | manage (s : State) (processes : List Identity) (hpc : s.pc = .serving) :
      Step s .environment { s with processes := processes }
  /-- `shutdown.json` is published; `join_all` begins. -/
  | mark (s : State) (hpc : s.pc = .marking) :
      Step s .environment
        { s with
          shutdown := .object [("service_id", service_id)], pc := .joining s.processes }
  /-- `process.is_alive()`, then a tick. -/
  | alive (s : State) (p : Identity) (todo : List Identity) (c : Controller.State)
      (hpc : s.pc = .joining (p :: todo)) (hlive : s.controller.os.live p = true)
      (h : Controller.Step graceful_timeout_seconds service_id s.controller (.tick false) c) :
      Step s (.tick false) { s with controller := c, pc := .ticking (p :: todo) }
  | joined (s : State) (p : Identity) (todo : List Identity) (hpc : s.pc = .joining (p :: todo))
      (hdead : s.controller.os.live p = false) :
      Step s .environment { s with pc := .joining todo }
  | timeout (s : State) (todo : List Identity) (hpc : s.pc = .waiting todo) :
      Step s .environment { s with pc := .joining todo }
  /-- The tick after the last process. -/
  | last (s : State) (c : Controller.State) (hpc : s.pc = .joining [])
      (h : Controller.Step graceful_timeout_seconds service_id s.controller (.tick false) c) :
      Step s (.tick false) { s with controller := c, pc := .ticking [] }
  /-- The `finally` of `run_windows` shuts down again. -/
  | again (s : State) (hpc : s.pc = .done ∨ s.pc = .raised) :
      Step s .environment { s with pc := .serving }

variable {graceful_timeout_seconds service_id} {s t : State} {l : Controller.Label}

/-- The controller does not move by itself. -/
theorem stutter (c : Controller.State) :
    Controller.Step graceful_timeout_seconds service_id c .environment c :=
  .time c c.clock c.wall le_rfl

theorem Step.toController (h : Step graceful_timeout_seconds service_id s l t) :
    Controller.Step graceful_timeout_seconds service_id s.controller l t.controller := by
  cases h with
  | controller _ c pc h hpc => exact h
  | manage | mark | joined | timeout | again => exact stutter _
  | alive p todo c hpc hlive h => exact h
  | last c hpc h => exact h

/-- The controller's part of a run. -/
def controllerRun (r : Run (Step graceful_timeout_seconds service_id)) :
    Run (Controller.Step graceful_timeout_seconds service_id) :=
  r.map State.controller fun _ _ _ h => h.toController

/-! ## Statements -/

variable {r : Run (Step graceful_timeout_seconds service_id)} {i e : Nat} {p : Identity}
  {path : String} {c c' : Controller.State}

/-- The call of `terminate_all` that begins at step `i` returns in state `e`. -/
structure TerminateAll (r : Run (Step graceful_timeout_seconds service_id)) (i e : Nat) :
    Prop where
  lt : i < e
  le : e ≤ r.length
  serving : (r.state i).pc = .serving
  begins : r.label i = .retire none
  inside : ∀ m, i < m → m < e → (r.state m).pc = .retiring ∨ (r.state m).pc = .marking
  returns : (r.state e).pc = .joining (r.state e).processes

/-- A file of `worker_state_dir` holds the worker's observation. -/
def Published (service_id : Value) (path : String) (p : Identity) (c : Controller.State) : Prop :=
  ∃ record, c.observations path = .object record ∧ OfService service_id record ∧
    recordIdentity? record = some p

/-- The observation stays in its file while `terminate_all` looks, if the process lives. -/
def Observed (r : Run (Step graceful_timeout_seconds service_id)) (i e : Nat) (p : Identity) :
    Prop :=
  ∃ path, ∀ m, i ≤ m → m < e → (r.state m).controller.os.live p = true →
    Published service_id path p (r.state m).controller

/-- What `join_all` needs of every native process that `terminate_all` finds. -/
structure Covered (r : Run (Step graceful_timeout_seconds service_id)) (i e : Nat) : Prop where
  /-- A process that is alive in a tick past the time-out has been selected. -/
  selected : ∀ p, p ∈ (r.state i).processes → (r.state i).controller.os.live p = true →
    ∀ a b events ok, e ≤ a → Controller.Tick (controllerRun r) a b events ok →
      (r.state e).controller.clock + graceful_timeout_seconds ≤ (r.state a).controller.clock →
      (r.state b).controller.os.live p = true → ∃ k, k < b ∧ r.label k = .select p
  /-- A deadline covers every process that is still alive. -/
  armed : ∀ p, p ∈ (r.state i).processes → (r.state i).controller.os.live p = true →
    ∀ m, e ≤ m → m ≤ r.length → (r.state m).controller.os.live p = true →
      (r.state m).controller.retirements.get? p ≠ none ∨ ∃ k, k < m ∧ r.label k = .select p

/-! ## The scan finds what is published -/

/-- `retire` is going to arm `p`, whose observation is in `path`. -/
def Looking (service_id : Value) (path : String) (p : Identity) (c : Controller.State) : Prop :=
  match c.pc with
  | .observing (.next todo result) => path ∈ todo ∨ p ∈ result.filterMap recordIdentity?
  | .observing (.check record todo result) => path ∈ todo ∨
      (OfService service_id record ∧ recordIdentity? record = some p) ∨
      p ∈ result.filterMap recordIdentity?
  | .arming todo => p ∈ todo ∨ c.retirements.get? p ≠ none
  | _ => False

theorem looking_of_retire
    (h : Controller.Step graceful_timeout_seconds service_id c (.retire none) c')
    (hp : Published service_id path p c) : Looking service_id path p c' := by
  obtain ⟨record, hfile, -⟩ := hp
  cases h with
  | retireAll todo hpc hlist =>
    refine .inl ((hlist.glob path).mpr ?_)
    rw [hfile]
    nofun

/-- The scan does not pass over the observation of a live process. -/
theorem looking_scan {scan scan' : LiveWorkers} (hpc : c.pc = .observing scan)
    (hscan : LiveWorkers.Step c.os c.observations service_id scan scan')
    (hs : Looking service_id path p c) (hp : Published service_id path p c)
    (hlive : c.os.live p = true) :
    Looking service_id path p { c with pc := .observing scan' } := by
  unfold Looking at hs ⊢
  rw [hpc] at hs
  cases hscan with
  | read first todo result =>
    rcases hs with hm | hm
    · rcases List.mem_cons.mp hm with rfl | hm
      · obtain ⟨record, hfile, hown, hid⟩ := hp
        rw [hfile]
        exact .inr (.inl ⟨hown, hid⟩)
      · exact .inl hm
    · exact .inr (.inr hm)
  | keep record todo result hown' hlive' =>
    have hresult : p ∈ result.filterMap recordIdentity? ∨ recordIdentity? record = some p →
        p ∈ (result ++ [record]).filterMap recordIdentity? := by
      intro h
      rw [List.filterMap_append, List.mem_append]
      refine h.imp_right fun hid => ?_
      simp [hid]
    rcases hs with hm | ⟨-, hid⟩ | hm
    · exact .inl hm
    · exact .inr (hresult (.inr hid))
    · exact .inr (hresult (.inl hm))
  | skip record todo result hskip =>
    rcases hs with hm | ⟨hown, hid⟩ | hm
    · exact .inl hm
    · have hrecord : isLive c.os record = true := by
        unfold isLive
        rw [hid]
        exact hlive
      rcases hskip with hskip | hskip
      · exact absurd hown hskip
      · rw [hrecord] at hskip
        cases hskip
    · exact .inr hm

theorem looking_step (h : Controller.Step graceful_timeout_seconds service_id c l c')
    (hs : Looking service_id path p c) (hp : Published service_id path p c)
    (hlive : c.os.live p = true) :
    Looking service_id path p c' ∨ l = .retireRaise ∨
      (l = .retired ∧ c'.retirements.get? p ≠ none) := by
  cases h
  case observe scan scan' hpc hscan =>
    exact .inl (looking_scan hpc hscan hs hp hlive)
  case observeFail => exact .inr (.inl rfl)
  case observeDone result hpc =>
    unfold Looking at hs ⊢
    rw [hpc] at hs
    exact .inl (.inl (hs.resolve_left List.not_mem_nil))
  case arm w todo hpc =>
    unfold Looking at hs ⊢
    rw [hpc] at hs
    refine .inl ?_
    show p ∈ todo ∨ (c.retirements.setdefault w _).get? p ≠ none
    rw [Dict.get?_setdefault]
    by_cases hpw : p = w
    · rw [if_pos hpw]
      exact .inr nofun
    · rw [if_neg hpw]
      exact hs.imp_left fun hm => (List.mem_cons.mp hm).resolve_left hpw
  case retired hpc =>
    unfold Looking at hs
    rw [hpc] at hs
    exact .inr (.inr ⟨rfl, hs.resolve_left List.not_mem_nil⟩)
  case os | time | publish => exact .inl hs
  case denied hpc =>
    unfold Looking at hs
    rcases hpc with ⟨v, todo, failed, hpc⟩ | ⟨id, todo, failed, hpc⟩ <;> rw [hpc] at hs <;>
      exact hs.elim
  all_goals
    unfold Looking at hs
    rw [‹c.pc = _›] at hs
    exact hs.elim

/-- No armed deadline is further away than the time-out. -/
def Near (graceful : ℚ) (c : Controller.State) : Prop :=
  ∀ w deadline, c.retirements.get? w = some deadline → deadline ≤ c.clock + graceful

theorem near_step (h : Controller.Step graceful_timeout_seconds service_id c l c')
    (hs : Near graceful_timeout_seconds c) : Near graceful_timeout_seconds c' := by
  intro w deadline hw
  cases h
  case time clock wall hmono => exact (hs w deadline hw).trans (add_le_add_left hmono _)
  case arm v todo hpc =>
    replace hw : (c.retirements.setdefault v _).get? w = some deadline := hw
    rw [Dict.get?_setdefault] at hw
    by_cases hwv : w = v
    · rw [if_pos hwv] at hw
      cases hv : c.retirements.get? v with
      | none =>
        rw [hv] at hw
        exact (Option.some.inj hw).ge
      | some old =>
        rw [hv] at hw
        exact Option.some.inj hw ▸ hs v old hv
    · rw [if_neg hwv] at hw
      exact hs w deadline hw
  case retireSelect | retireDead =>
    replace hw : (c.retirements.erase _).get? w = some deadline := hw
    rw [Dict.get?_erase] at hw
    split at hw
    · cases hw
    · exact hs w deadline hw
  all_goals exact hs w deadline hw

/-! ## Along a run -/

/-- A process of the history that is live later is live now. -/
theorem live_of_live {m n : Nat} (hl : (r.state i).controller.os.live p = true) (him : i ≤ m)
    (hmn : m ≤ n) (hn : n ≤ r.length) (hlive : (r.state n).controller.os.live p = true) :
    (r.state m).controller.os.live p = true := by
  have hseen : p ∈ (r.state m).controller.os.seen :=
    Controller.seen_run (r := controllerRun r) (Processes.seen_of_live hl) him (hmn.trans hn)
  cases hm : (r.state m).controller.os.live p with
  | true => rfl
  | false =>
    have hdead : (r.state n).controller.os.live p = false :=
      Controller.dead_run (r := controllerRun r) hseen hm hmn hn
    rw [hlive] at hdead
    cases hdead

/-- Between the scan and `join_all`, nothing is disarmed. -/
theorem armed_marking (h : Step graceful_timeout_seconds service_id s l t) (hpc : s.pc = .marking)
    (hs : s.controller.retirements.get? p ≠ none) :
    t.pc ≠ .retiring ∧ t.controller.retirements.get? p ≠ none := by
  cases h with
  | controller _ c pc h hafter =>
    rw [hpc] at hafter
    cases l with
    | environment =>
      cases hafter
      obtain ⟨deadline, hd⟩ := Option.ne_none_iff_exists'.mp hs
      rcases Controller.armed_step h hd with hd | hl | hl
      · exact ⟨nofun, by rw [hd]; nofun⟩
      · cases hl
      · cases hl
    | retire target => cases target <;> cases hafter
    | _ => cases hafter
  | mark => exact ⟨nofun, hs⟩
  | manage _ hpc' | alive _ _ _ hpc' | joined _ _ hpc' | timeout _ hpc' | last _ hpc' =>
    rw [hpc] at hpc'
    cases hpc'
  | again hpc' =>
    rw [hpc] at hpc'
    rcases hpc' with hpc' | hpc' <;> cases hpc'

theorem looking_retiring (h : Step graceful_timeout_seconds service_id s l t)
    (hpc : s.pc = .retiring) (hs : Looking service_id path p s.controller)
    (hp : Published service_id path p s.controller) (hlive : s.controller.os.live p = true)
    (ht : t.pc ≠ .raised) :
    (t.pc = .retiring ∧ Looking service_id path p t.controller) ∨
      (t.pc ≠ .retiring ∧ t.controller.retirements.get? p ≠ none) := by
  cases h with
  | controller _ c pc h hafter =>
    rw [hpc] at hafter
    have hlook := looking_step h hs hp hlive
    cases l with
    | environment | inner | arm =>
      cases hafter
      rcases hlook with hlook | hl | ⟨hl, -⟩
      · exact .inl ⟨rfl, hlook⟩
      · cases hl
      · cases hl
    | retired =>
      cases hafter
      rcases hlook with hlook | hl | ⟨-, harmed⟩
      · cases h with
        | retired hidle => exact hlook.elim
      · cases hl
      · exact .inr ⟨nofun, harmed⟩
    | retireRaise =>
      cases hafter
      exact absurd rfl ht
    | retire target => cases target <;> cases hafter
    | _ => cases hafter
  | manage _ hpc' | mark hpc' | alive _ _ _ hpc' | joined _ _ hpc' | timeout _ hpc' | last _ hpc' =>
    rw [hpc] at hpc'
    cases hpc'
  | again hpc' =>
    rw [hpc] at hpc'
    rcases hpc' with hpc' | hpc' <;> cases hpc'

theorem looking_begins (h : Step graceful_timeout_seconds service_id s (.retire none) t)
    (hpc : s.pc = .serving) (hp : Published service_id path p s.controller) :
    t.pc = .retiring ∧ Looking service_id path p t.controller := by
  cases h with
  | controller _ c pc h hafter =>
    rw [hpc] at hafter
    cases hafter
    exact ⟨rfl, looking_of_retire h hp⟩

/-- **What is observed is armed** when `terminate_all` returns. -/
theorem armed_at_return (ht : TerminateAll r i e) (hobs : Observed r i e p)
    (hlive : ∀ m, i ≤ m → m < e → (r.state m).controller.os.live p = true) :
    (r.state e).controller.retirements.get? p ≠ none := by
  obtain ⟨path, hpub⟩ := hobs
  have hphase : ∀ m, i + 1 ≤ m → m ≤ e →
      ((r.state m).pc = .retiring ∧ Looking service_id path p (r.state m).controller) ∨
        ((r.state m).pc ≠ .retiring ∧ (r.state m).controller.retirements.get? p ≠ none) := by
    intro m him
    induction m, him using Nat.le_induction with
    | base =>
      intro hie
      have hstep := r.step_ok i (ht.lt.trans_le ht.le)
      rw [ht.begins] at hstep
      exact .inl (looking_begins hstep ht.serving (hpub i le_rfl ht.lt (hlive i le_rfl ht.lt)))
    | succ m him ih =>
      intro hme
      have hstep := r.step_ok m (Nat.le_trans hme ht.le)
      have him' : i ≤ m := Nat.le_of_succ_le him
      rcases ih (Nat.le_of_succ_le hme) with ⟨hpc, hlook⟩ | ⟨hpc, harmed⟩
      · refine looking_retiring hstep hpc hlook (hpub m him' hme (hlive m him' hme))
          (hlive m him' hme) fun hraised => ?_
        rcases Nat.lt_or_ge (m + 1) e with hlt | hge
        · rcases ht.inside (m + 1) (by omega) hlt with h | h <;> rw [hraised] at h <;> cases h
        · obtain rfl : m + 1 = e := by omega
          have h := ht.returns
          rw [hraised] at h
          cases h
      · exact .inr (armed_marking hstep ((ht.inside m him hme).resolve_left hpc) harmed)
  rcases hphase e ht.lt le_rfl with ⟨hpc, -⟩ | ⟨-, h⟩
  · rw [ht.returns] at hpc
    cases hpc
  · exact h

theorem not_dropped {k : Nat} (hk : k < r.length)
    (hlive : (r.state k).controller.os.live p = true) : r.label k ≠ .drop p := by
  intro hl
  have hdead := Controller.not_live_of_drop (hl ▸ (r.step_ok k hk).toController)
  rw [hlive] at hdead
  cases hdead

/-- A deadline covers a live process until a tick selects it. -/
theorem armed_until {m : Nat} {deadline : ℚ}
    (hd : (r.state e).controller.retirements.get? p = some deadline) (hem : e ≤ m)
    (hm : m ≤ r.length)
    (hlive : ∀ k, e ≤ k → k < m → (r.state k).controller.os.live p = true) :
    (r.state m).controller.retirements.get? p = some deadline ∨
      ∃ k, k < m ∧ r.label k = .select p := by
  rcases (controllerRun r).holds_unless
      (P := fun c => c.retirements.get? p = some deadline)
      (E := fun _ l => l = .select p ∨ l = .drop p)
      (fun _ _ _ h hs => Controller.armed_step h hs) hem hm hd with h | ⟨k, hek, hkm, hk | hk⟩
  · exact .inl h
  · exact .inr ⟨k, hkm, hk⟩
  · exact absurd hk (not_dropped (hkm.trans_le hm) (hlive k hek hkm))

/-- **A deadline covers what is observed.** -/
theorem covered_of_observed (h0 : Init (r.state 0)) (ht : TerminateAll r i e)
    (hobs : ∀ p, p ∈ (r.state i).processes → (r.state i).controller.os.live p = true →
      Observed r i e p ∨ (r.state i).controller.retirements.get? p ≠ none) :
    Covered r i e := by
  have hnear : Near graceful_timeout_seconds (r.state e).controller := by
    refine (controllerRun r).invariant (P := Near graceful_timeout_seconds) ?_
      (fun _ _ _ h hs => near_step h hs) e ht.le
    intro w deadline hw
    replace hw : (r.state 0).controller.retirements.get? w = some deadline := hw
    rw [h0.controller.retirements] at hw
    cases hw
  -- When the call returns, a process that is going to be alive is armed, or has been selected.
  have hreturn : ∀ p, p ∈ (r.state i).processes → (r.state i).controller.os.live p = true →
      ∀ n, e ≤ n → n ≤ r.length → (r.state n).controller.os.live p = true →
        (∃ deadline, (r.state e).controller.retirements.get? p = some deadline) ∨
          ∃ k, k < e ∧ r.label k = .select p := by
    intro p hp hl n hen hn hlive
    rcases hobs p hp hl with hobs | harmed
    · exact .inl (Option.ne_none_iff_exists'.mp (armed_at_return ht hobs fun m him hme =>
        live_of_live hl him (hme.le.trans hen) hn hlive))
    · obtain ⟨deadline, hd⟩ := Option.ne_none_iff_exists'.mp harmed
      exact (armed_until hd ht.lt.le ht.le fun k hik hke =>
        live_of_live hl hik (hke.le.trans hen) hn hlive).imp_left fun h => ⟨deadline, h⟩
  have hcover : ∀ p, p ∈ (r.state i).processes → (r.state i).controller.os.live p = true →
      ∀ m n, e ≤ m → m ≤ n → n ≤ r.length → (r.state n).controller.os.live p = true →
        (∃ deadline, (r.state m).controller.retirements.get? p = some deadline ∧
          deadline ≤ (r.state e).controller.clock + graceful_timeout_seconds) ∨
          ∃ k, k < m ∧ r.label k = .select p := by
    intro p hp hl m n hem hmn hn hlive
    rcases hreturn p hp hl n (hem.trans hmn) hn hlive with ⟨deadline, hd⟩ | ⟨k, hke, hk⟩
    · refine (armed_until hd hem (hmn.trans hn) fun k hek hkm => ?_).imp_left
        fun h => ⟨deadline, h, hnear p deadline hd⟩
      exact live_of_live hl (ht.lt.le.trans hek) (hkm.le.trans hmn) hn hlive
    · exact .inr ⟨k, hke.trans_le hem, hk⟩
  refine ⟨?_, ?_⟩
  · intro p hp hl a b events ok hea htick hclock hlive
    have hb : b ≤ r.length := htick.le.le
    rcases hcover p hp hl a b hea htick.lt.le hb hlive with ⟨deadline, hd, hle⟩ | ⟨k, hka, hk⟩
    · obtain ⟨k, hak, hkb, hk | hk⟩ := htick.meets hd (hle.trans hclock)
      · exact ⟨k, hkb, hk⟩
      · have hlk : (r.state k).controller.os.live p = true :=
          live_of_live hl (ht.lt.le.trans (hea.trans hak.le)) hkb.le hb hlive
        exact absurd hk (not_dropped (hkb.trans htick.le) hlk)
    · exact ⟨k, hka.trans htick.lt, hk⟩
  · intro p hp hl m hem hm hlive
    refine (hcover p hp hl m m hem le_rfl hm hlive).imp_left ?_
    rintro ⟨deadline, hd, -⟩
    rw [hd]
    nofun

/-! ## Two shutdowns -/

/-- A manager that serves with the one process 9. -/
def servingWith (observations : String → Stored) : State where
  controller :=
    { os := .ofList [⟨9, 0⟩], clock := 0, wall := 0
      observations := observations, stopping := .empty, retirements := .empty, pc := .idle }
  processes := [⟨9, 0⟩]
  shutdown := .absent
  pc := .serving

/-- The observation of the process 9. -/
def published (path : String) : Stored :=
  if path = "9.json" then .object (processIdentity ⟨9, 0⟩ ++ [("service_id", .str "start")])
  else .absent

theorem listing_published : Listing published ["9.json"] := by
  refine ⟨List.pairwise_singleton _ _, fun path => ?_⟩
  unfold published
  rw [List.mem_singleton]
  split <;> simp_all

/-- `terminate_all` finds the process and arms its deadline. -/
def observedShutdown : Run (Step 30 (.str "start")) :=
  let p : Identity := ⟨9, 0⟩
  let record := processIdentity p ++ [("service_id", .str "start")]
  let r := Run.start (Step 30 (.str "start")) (servingWith published) .environment
  let r := r.snoc (.controller _ _ _ .retiring (.retireAll _ ["9.json"] rfl listing_published) rfl)
  let r := r.snoc (.controller _ _ _ .retiring (.observe _ _ _ rfl (.read "9.json" [] [])) rfl)
  let r := r.snoc (.controller _ _ _ .retiring
    (.observe _ _ _ rfl (.keep record [] [] ⟨_, rfl, rfl⟩ rfl)) rfl)
  let r := r.snoc (.controller _ _ _ .retiring (.observeDone _ [record] rfl) rfl)
  let r := r.snoc (.controller _ _ _ .retiring (.arm _ p [] rfl) rfl)
  let r := r.snoc (.controller _ _ _ .marking (.retired _ rfl) rfl)
  r.snoc (.mark _ rfl)

theorem covered_observedShutdown :
    TerminateAll observedShutdown 0 7 ∧ Covered observedShutdown 0 7 := by
  have ht : TerminateAll observedShutdown 0 7 := by
    refine ⟨by decide, by decide, rfl, rfl, fun m hm hme => ?_, rfl⟩
    interval_cases m <;> first | exact .inl rfl | exact .inr rfl
  refine ⟨ht, covered_of_observed ⟨⟨rfl, rfl, rfl⟩, rfl⟩ ht fun p hp _ => .inl ⟨"9.json", ?_⟩⟩
  rw [List.mem_singleton.mp hp]
  intro m _ hme _
  interval_cases m <;> exact ⟨_, rfl, ⟨_, rfl, rfl⟩, rfl⟩

/-- The process has not published yet; the time-out passes, and a tick selects nothing. -/
def hungStartup : Run (Step 30 (.str "start")) :=
  let r := Run.start (Step 30 (.str "start")) (servingWith fun _ => .absent) .environment
  let r := r.snoc (.controller _ _ _ .retiring
    (.retireAll _ [] rfl ⟨List.Pairwise.nil, fun _ => ⟨nofun, fun h => absurd rfl h⟩⟩) rfl)
  let r := r.snoc (.controller _ _ _ .retiring (.observeDone _ [] rfl) rfl)
  let r := r.snoc (.controller _ _ _ .marking (.retired _ rfl) rfl)
  let r := r.snoc (.mark _ rfl)
  let r := r.snoc (.controller _ _ _ _ (.time _ 30 30 (by show (0 : ℚ) ≤ 30; decide)) rfl)
  let r := r.snoc (.alive _ ⟨9, 0⟩ [] _ rfl rfl (.tick _ false rfl))
  let r := r.snoc (.controller _ _ _ _ (.read _ false [] rfl) rfl)
  let r := r.snoc (.controller _ _ _ _ (.expired _ false [] [] rfl) rfl)
  let r := r.snoc (.controller _ _ _ _ (.compose _ false [] [] rfl) rfl)
  let r := r.snoc (.controller _ _ _ _ (.log _ [] [] true rfl fun _ => rfl) rfl)
  r.snoc (.controller _ _ _ _ (.ret _ rfl) rfl)

/-- **A process that has not published** is not covered: no tick selects it, `join_all` waits. -/
theorem unpublished_uncovered :
    ¬ ∀ (r : Run (Step 30 (.str "start"))) (i e : Nat), Init (r.state 0) → TerminateAll r i e →
      Covered r i e := by
  intro h
  have ht : TerminateAll hungStartup 0 4 := by
    refine ⟨by decide, by decide, rfl, rfl, fun m hm hme => ?_, rfl⟩
    interval_cases m <;> first | exact .inl rfl | exact .inr rfl
  have hc := h hungStartup 0 4 ⟨⟨rfl, rfl, rfl⟩, rfl⟩ ht
  have htick : Controller.Tick (controllerRun hungStartup) 5 9 [] true := by
    refine ⟨by decide, by decide, ⟨false, rfl⟩, rfl, fun m hm hmb events ok => ?_⟩
    interval_cases m <;> nofun
  obtain ⟨k, hk, hl⟩ := hc.selected ⟨9, 0⟩ (.head _) rfl 5 9 [] true (by decide) htick
    (zero_add (30 : ℚ)).le rfl
  interval_cases k <;> cases hl

end LclFastapi.Runtime.Windows
