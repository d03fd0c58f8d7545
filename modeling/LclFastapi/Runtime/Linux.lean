import LclFastapi.Runtime.Deadlines

/-!
# Signals forwarded on Linux (`run_linux` of `runtime/linux.py`)

`run_linux` wraps `kill_workers(sig)` of the native arbiter: `controller_retiring()` for every
signal but the final `SIGKILL`, then `controller_background_tick`, then the native method. The
arbiter forwards every broadcast signal through it, not only the terminating ones.

A run interleaves these calls with the other uses of the controller: retirement of one reload
target, and ticks without force. `Asked` says which steps ask a worker to stop. `retire` arms
workers for any forwarded signal, so a worker can be killed unasked (`healthy_worker_killed`); it
is not in the runs of `Spares`.
-/

namespace LclFastapi.Runtime.Linux

open Lib (Dict Identity Processes Run)
open Background (JournalRecord)
open Controller (timeoutLine)

/-- `SIGKILL`. -/
def FORCED_TERMINATION_SIGNAL : Nat := 9

/-- `SIGTERM`, `SIGINT` and `SIGQUIT`. -/
def Terminating (sig : Nat) : Prop := sig = 15 ∨ sig = 2 ∨ sig = 3

/-- Where the arbiter is in `kill_workers`. -/
inductive Call where
  | idle
  /-- In `controller_retiring()`. -/
  | retiring (sig : Nat)
  /-- About to call `controller_background_tick`. -/
  | retired (sig : Nat)
  /-- In `controller_background_tick`. -/
  | ticking (sig : Nat)
  /-- About to call the native method. -/
  | native (sig : Nat)

/-- The step of `kill_workers` that goes with a step of the controller; `none` when the arbiter
does not allow it there. -/
def Call.next : Call → Controller.Label → Option Call
  | _, .retire none | .idle, .tick true => none
  | .retiring sig, .retired => some (.retired sig)
  | .retiring _, .retireRaise => some .idle
  | .retired sig, .tick force =>
    if force = decide (sig = FORCED_TERMINATION_SIGNAL) then some (.ticking sig) else none
  | .retired sig, .environment => some (.retired sig)
  | .retired _, _ => none
  | .ticking sig, .ret => some (.native sig)
  | .ticking _, .raise | .ticking _, .denied => some .idle
  | .native sig, .environment => some (.native sig)
  | .native _, _ => none
  | call, _ => some call

theorem Call.retiring_of_next {call : Call} {l : Controller.Label} {sig : Nat}
    (h : call.next l = some (.retiring sig)) : call = .retiring sig := by
  unfold Call.next at h
  split at h <;> first | exact Option.some.inj h | simp at h

theorem Call.next_retiring {call : Call} {l : Controller.Label} {sig : Nat}
    (h : (Call.retiring sig).next l = some call) :
    call = .retiring sig ∨ l = .retired ∨ l = .retireRaise := by
  unfold Call.next at h
  split at h <;> simp_all

/-- The controller, and the call of the arbiter. -/
structure State where
  controller : Controller.State
  call : Call

/-- No call is under way. -/
def Init (s : State) : Prop := Controller.Init s.controller ∧ s.call = .idle

/-- The steps. -/
inductive Label where
  /-- `kill_workers(sig)` is called. -/
  | kill (sig : Nat)
  | inner (l : Controller.Label)
  /-- `native_kill(sig)`. -/
  | native (sig : Nat)

variable (graceful : ℚ) (service_id : Value)

/-- The steps of the arbiter and of the controller. -/
inductive Step : State → Label → State → Prop
  /-- `if sig != FORCED_TERMINATION_SIGNAL: controller_retiring()`. -/
  | killWorkers (s : State) (sig : Nat) (c : Controller.State) (hcall : s.call = .idle)
      (hsig : sig ≠ FORCED_TERMINATION_SIGNAL)
      (h : Controller.Step graceful service_id s.controller (.retire none) c) :
      Step s (.kill sig) ⟨c, .retiring sig⟩
  | killForced (s : State) (c : Controller.State) (hcall : s.call = .idle)
      (h : Controller.Step graceful service_id s.controller (.tick true) c) :
      Step s (.kill FORCED_TERMINATION_SIGNAL) ⟨c, .ticking FORCED_TERMINATION_SIGNAL⟩
  | inner (s : State) (l : Controller.Label) (c : Controller.State) (call : Call)
      (h : Controller.Step graceful service_id s.controller l c)
      (hcall : s.call.next l = some call) : Step s (.inner l) ⟨c, call⟩
  | native (s : State) (sig : Nat) (hcall : s.call = .native sig) :
      Step s (.native sig) { s with call := .idle }

variable {graceful} {service_id} {s s' : State} {l : Label} {w : Identity}

/-! ## The identities the controller holds -/

/-- The identities of the snapshots a program point works through. -/
def queued : Controller.PC → List Identity
  | .expiring _ todo _ _ => todo.map fun e => e.2.identity
  | .expireDue _ _ record todo _ _ => record.identity :: todo.map fun e => e.2.identity
  | .retiring _ todo _ _ => todo.map Prod.fst
  | .retireDue _ w _ todo _ _ => w :: todo.map Prod.fst
  | _ => []

/-- Everything the controller may come to kill. -/
def Named (c : Controller.State) (w : Identity) : Prop :=
  c.retirements.get? w ≠ none ∨ (∃ pid r, c.stopping.get? pid = some r ∧ r.identity = w) ∨
    w ∈ queued c.pc ∨ w ∈ c.pc.chosen

/-- A record that announces a stopping deadline for `w`. -/
def Announced (w : Identity) (l : Controller.Label) : Prop :=
  ∃ records, l = .read records ∧ ∃ r ∈ records, r.identity = w ∧ r.deadline.isSome = true

section Controller

variable {c c' : Controller.State} {l : Controller.Label} {pid : Nat} {r : JournalRecord}

theorem stopping_step (h : Controller.Step graceful service_id c l c')
    (hr : c'.stopping.get? pid = some r) :
    c.stopping.get? pid = some r ∨ Announced r.identity l := by
  cases h
  case read records hpc | readFail records error hpc =>
    rcases Background.stopping_foldl hr with h | ⟨hm, hd⟩
    · exact .inl h
    · exact .inr ⟨records, rfl, r, hm, rfl, hd⟩
  case expireDead | expireSelect =>
    refine .inl ?_
    rw [Dict.get?_erase] at hr
    split at hr
    · exact absurd hr (by simp)
    · exact hr
  all_goals exact .inl hr

theorem queued_step (h : Controller.Step graceful service_id c l c') (hw : w ∈ queued c'.pc) :
    Named c w ∨ Announced w l := by
  have hstop (pid : Nat) (r : JournalRecord) := @stopping_step _ _ _ _ _ pid r h
  cases h
  case read records hpc | readFail records error hpc =>
    obtain ⟨⟨pid, r⟩, hm, rfl⟩ := List.mem_map.mp hw
    exact (hstop pid r (Dict.mem_entries.mp hm)).imp_left fun h => .inr (.inl ⟨pid, r, h, rfl⟩)
  case expired force expired events hpc =>
    obtain ⟨⟨v, d⟩, hm, rfl⟩ := List.mem_map.mp hw
    exact .inl (.inl (by rw [Dict.mem_entries.mp hm]; simp))
  case os | time | publish => exact .inl (.inr (.inr (.inl hw)))
  case expireDead hpc _ | expireSelect hpc _ _ | retireDead hpc _ | retireSelect hpc _ |
      expireKeep hpc _ _ | retireKeep hpc _ =>
    exact .inl (.inr (.inr (.inl (by rw [hpc]; exact List.mem_cons_of_mem _ hw))))
  case expireLive hpc _ | retireLive hpc _ =>
    exact .inl (.inr (.inr (.inl (by rw [hpc]; exact hw))))
  all_goals exact absurd hw List.not_mem_nil

theorem queued_of_select (h : Controller.Step graceful service_id c (.select w) c') :
    w ∈ queued c.pc := by
  cases h with
  | expireSelect _ _ _ _ _ _ _ hpc | retireSelect _ _ _ _ _ _ hpc =>
    rw [hpc]
    exact List.mem_cons_self

/-- An identity enters the controller by `setdefault` or by an announcement. -/
theorem named_step (h : Controller.Step graceful service_id c l c') (hw : Named c' w) :
    Named c w ∨ l = .arm w ∨ Announced w l := by
  rcases hw with hw | ⟨pid, r, hr, rfl⟩ | hw | hw
  · by_cases hnone : c.retirements.get? w = none
    · rcases Controller.unarmed_step h hnone with h' | h'
      · exact absurd h' hw
      · exact .inr (.inl h')
    · exact .inl (.inl hnone)
  · rcases stopping_step h hr with h' | h'
    · exact .inl (.inr (.inl ⟨pid, r, h', rfl⟩))
    · exact .inr (.inr h')
  · exact (queued_step h hw).imp_right .inr
  · rcases Controller.chosen_step h hw with ⟨h', -⟩ | rfl
    · exact .inl (.inr (.inr (.inr h')))
    · exact .inl (.inr (.inr (.inl (queued_of_select h))))

/-- A program point outside `retire()` for all workers; a reload target satisfies `J`. -/
def OneTarget (J : Identity → Prop) : Controller.PC → Prop
  | .observing _ => False
  | .arming todo => ∀ w ∈ todo, J w
  | _ => True

theorem oneTarget_step {J : Identity → Prop} (h : Controller.Step graceful service_id c l c')
    (hl : l ≠ .retire none) (hJ : ∀ w, l = .retire (some w) → J w) (hpc : OneTarget J c.pc) :
    OneTarget J c'.pc := by
  cases h
  case retireOne v hseen _ =>
    intro u hu
    rw [List.mem_singleton.mp hu]
    exact hJ v rfl
  case retireAll => exact absurd rfl hl
  case os | time | publish => exact hpc
  case arm v todo hpc' =>
    rw [hpc'] at hpc
    exact fun u hu => hpc u (List.mem_cons_of_mem _ hu)
  case observe | observeDone =>
    rw [‹c.pc = _›] at hpc
    exact hpc.elim
  all_goals trivial

theorem oneTarget_of_end {J : Identity → Prop} (h : Controller.Step graceful service_id c l c')
    (hl : l = .retired ∨ l = .retireRaise) : OneTarget J c'.pc := by
  rcases hl with rfl | rfl <;> cases h <;> exact trivial

end Controller

/-! ## Runs -/

/-- A step that asks `w` to stop: a terminating signal or the final sweep, a reload of `w`, or a
deadline in its journal. -/
def Asked (w : Identity) : Label → Prop
  | .kill sig => Terminating sig ∨ sig = FORCED_TERMINATION_SIGNAL
  | .inner l => l = .retire (some w) ∨ Announced w l
  | .native _ => False

variable {r : Run (Step graceful service_id)} {i j : Nat}

/-- `w` has been asked to stop before step `j`. -/
def Justified (r : Run (Step graceful service_id)) (j : Nat) (w : Identity) : Prop :=
  ∃ k, k < j ∧ Asked w (r.label k)

/-- The condition: `retire()`, called for a forwarded signal that is not terminating, arms no
worker for the first time that has not been asked to stop. -/
def Spares (r : Run (Step graceful service_id)) : Prop :=
  ∀ i sig w, i < r.length → (r.state i).call = .retiring sig → ¬ Terminating sig →
    r.label i = .inner (.arm w) →
    (r.state i).controller.retirements.get? w ≠ none ∨ Justified r i w

theorem Justified.next (h : Justified r j w) : Justified r (j + 1) w := by
  obtain ⟨k, hkj, hk⟩ := h
  exact ⟨k, Nat.lt_succ_of_lt hkj, hk⟩

/-- What the controller holds at step `j` has been asked to stop. -/
structure Inv (r : Run (Step graceful service_id)) (j : Nat) : Prop where
  named : ∀ w, Named (r.state j).controller w → Justified r j w
  called : ∀ sig, (r.state j).call = .retiring sig → ∃ k, k < j ∧ r.label k = .kill sig
  target : (∃ sig, (r.state j).call = .retiring sig) ∨
    OneTarget (Justified r j) (r.state j).controller.pc

theorem Inv.init (h0 : Init (r.state 0)) : Inv r 0 := by
  obtain ⟨⟨hstop, hret, hpc⟩, hcall⟩ := h0
  refine ⟨fun w hw => ?_, fun sig h => ?_, .inr ?_⟩
  · rcases hw with hw | ⟨pid, rec, hrec, -⟩ | hw | hw
    · simp [hret] at hw
    · simp [hstop] at hrec
    · rw [hpc] at hw
      exact absurd hw List.not_mem_nil
    · rw [hpc] at hw
      exact absurd hw List.not_mem_nil
  · rw [hcall] at h
    exact absurd h (by simp)
  · rw [hpc]
    exact trivial

theorem OneTarget.mono {J J' : Identity → Prop} {pc : Controller.PC} (h : OneTarget J pc)
    (hJ : ∀ w, J w → J' w) : OneTarget J' pc := by
  cases pc with
  | arming todo => exact fun w hw => hJ w (h w hw)
  | _ => exact h

/-- A worker that is about to be armed has been asked to stop. -/
theorem Inv.arm {c : Controller.State} (hi : Inv r i) (hc : Spares r) (hlt : i < r.length)
    (hl : r.label i = .inner (.arm w))
    (h : Controller.Step graceful service_id (r.state i).controller (.arm w) c) :
    Justified r i w := by
  rcases hi.target with ⟨sig, hcall⟩ | htarget
  · by_cases hterm : Terminating sig
    · obtain ⟨k, hki, hk⟩ := hi.called sig hcall
      exact ⟨k, hki, by rw [hk]; exact .inl hterm⟩
    · rcases hc i sig w hlt hcall hterm hl with harmed | hj
      · exact hi.named w (.inl harmed)
      · exact hj
  · cases h with
    | arm _ todo hpc =>
      rw [hpc] at htarget
      exact htarget w List.mem_cons_self

theorem Inv.next (hi : Inv r i) (hc : Spares r) (hlt : i < r.length) : Inv r (i + 1) := by
  have hstep := r.step_ok i hlt
  have named {l : Controller.Label} {c : Controller.State}
      (h : Controller.Step graceful service_id (r.state i).controller l c)
      (harm : ∀ w, l = .arm w → Justified r i w)
      (hread : ∀ w, Announced w l → Asked w (r.label i)) (w : Identity) (hw : Named c w) :
      Justified r (i + 1) w := by
    rcases named_step h hw with hw' | rfl | hann
    · exact (hi.named w hw').next
    · exact (harm w rfl).next
    · exact ⟨i, Nat.lt_succ_self i, hread w hann⟩
  generalize hs' : r.state (i + 1) = s' at hstep
  generalize hl : r.label i = l at hstep
  constructor <;> rw [hs']
  case named =>
    cases hstep with
    | killWorkers sig c hcall hsig h =>
      exact named h (by simp) fun w ⟨_, he, _⟩ => by simp at he
    | killForced c hcall h => exact named h (by simp) fun w ⟨_, he, _⟩ => by simp at he
    | inner l c call h hcall =>
      refine named h (fun w hw => ?_) fun w hw => hl ▸ .inr hw
      subst hw
      exact hi.arm hc hlt hl h
    | native sig hcall => exact fun w hw => (hi.named w hw).next
  case called =>
    intro sig' hcall'
    have old (h : (r.state i).call = .retiring sig') : ∃ k, k < i + 1 ∧ r.label k = .kill sig' := by
      obtain ⟨k, hki, hk⟩ := hi.called sig' h
      exact ⟨k, Nat.lt_succ_of_lt hki, hk⟩
    cases hstep with
    | killWorkers sig c hcall hsig h =>
      obtain rfl := Call.retiring.inj hcall'
      exact ⟨i, Nat.lt_succ_self i, hl⟩
    | killForced c hcall h => exact absurd hcall' (by simp)
    | inner l c call h hcall =>
      exact old (Call.retiring_of_next (hcall.trans (congrArg some hcall')))
    | native sig hcall => exact absurd hcall' (by simp)
  case target =>
    have next : ∀ w, Justified r i w → Justified r (i + 1) w := fun w h => h.next
    cases hstep with
    | killWorkers sig c hcall hsig h => exact .inl ⟨sig, rfl⟩
    | killForced c hcall h =>
      rcases hi.target with ⟨sig, he⟩ | ht
      · rw [hcall] at he
        exact absurd he (by simp)
      · exact .inr ((oneTarget_step h (by simp) (by simp) ht).mono next)
    | inner l c call h hcall =>
      rcases hi.target with ⟨sig, he⟩ | ht
      · rw [he] at hcall
        rcases Call.next_retiring hcall with hsame | hend
        · exact .inl ⟨sig, hsame⟩
        · exact .inr (oneTarget_of_end h hend)
      · refine .inr (oneTarget_step h (fun hn => ?_) (fun w hw => ?_) (ht.mono next))
        · subst hn
          exact absurd hcall (by simp [Call.next])
        · exact ⟨i, Nat.lt_succ_self i, by rw [hl]; exact .inl hw⟩
    | native sig hcall =>
      rcases hi.target with ⟨sig', he⟩ | ht
      · rw [hcall] at he
        exact absurd he (by simp)
      · exact .inr (ht.mono next)

theorem Inv.run (h0 : Init (r.state 0)) (hc : Spares r) : ∀ j, j ≤ r.length → Inv r j
  | 0, _ => .init h0
  | j + 1, hj => (Inv.run h0 hc j (Nat.le_of_succ_le hj)).next hc hj

/-- **No worker is killed unasked**, in every run whose forwarded signals spare the workers. -/
theorem kill_asked (r : Run (Step graceful service_id)) (h0 : Init (r.state 0)) (hc : Spares r) :
    ∀ j id, j < r.length → r.label j = .inner (.signal id) → Justified r j id := by
  intro j id hj hl
  have hi := Inv.run h0 hc j hj.le
  have hstep := r.step_ok j hj
  rw [hl] at hstep
  generalize r.state (j + 1) = s' at hstep
  cases hstep with
  | inner _ c call h hcall =>
    exact hi.named id (.inr (.inr (.inr (Controller.chosen_of_signal h))))

/-! ## A forwarded user signal -/

/-- The observation of worker 7. -/
def observation : Record :=
  processIdentity ⟨7, 0⟩ ++ [("service_id", .str "start")]

/-- A service with one published worker. -/
def serving : State where
  controller :=
    { os := .ofList [⟨7, 0⟩], clock := 0, wall := 0
      observations := fun p => if p = "7.json" then .object observation else .absent
      stopping := .empty, retirements := .empty, pc := .idle }
  call := .idle

theorem serving_glob (p : String) :
    p ∈ ["7.json"] ↔ serving.controller.observations p ≠ .absent := by
  by_cases hp : p = "7.json" <;> simp [serving, hp]

/-- `kill_workers(sig)` at time 0, and a tick of the arbiter at time 30. -/
def forwarded (sig : Nat) (hsig : sig ≠ FORCED_TERMINATION_SIGNAL) :
    Run (Step 30 (.str "start")) :=
  let w : Identity := ⟨7, 0⟩
  let r := Run.start (Step 30 (.str "start")) serving (.native 0)
  let r := r.snoc (.killWorkers _ sig _ rfl hsig
    (.retireAll _ ["7.json"] rfl ⟨by simp, serving_glob⟩))
  let r := r.snoc (.inner _ _ _ _ (.observe _ _ _ rfl (.read "7.json" [] [])) rfl)
  let r := r.snoc (.inner _ _ _ _ (.observe _ _ _ rfl
    (.keep observation [] [] ⟨.str "start", rfl, rfl⟩ rfl)) rfl)
  let r := r.snoc (.inner _ _ _ _ (.observeDone _ [observation] rfl) rfl)
  let r := r.snoc (.inner _ _ _ _ (.arm _ w [] rfl) rfl)
  let r := r.snoc (.inner _ _ _ _ (.retired _ rfl) rfl)
  let r := r.snoc (.inner _ _ _ (.ticking sig) (.tick _ false rfl)
    (if_pos (decide_eq_false hsig).symm))
  let r := r.snoc (.inner _ _ _ _ (.read _ false [] rfl) rfl)
  let r := r.snoc (.inner _ _ _ _ (.expired _ false [] [] rfl) rfl)
  let r := r.snoc (.inner _ _ _ _ (.retireLive _ false w (0 + 30) [] [] [] rfl rfl) rfl)
  let r := r.snoc (.inner _ _ _ _ (.retireKeep _ w (0 + 30) [] [] [] rfl
    (by show (0 : ℚ) < 0 + 30; rw [zero_add]; decide)) rfl)
  let r := r.snoc (.inner _ _ _ _ (.compose _ false [] [] rfl) rfl)
  let r := r.snoc (.inner _ _ _ _ (.log _ [] [] true rfl fun _ => rfl) rfl)
  let r := r.snoc (.inner _ _ _ _ (.ret _ rfl) rfl)
  let r := r.snoc (.native _ sig rfl)
  let r := r.snoc (.inner _ _ _ _ (.time _ 30 0 (by show (0 : ℚ) ≤ 30; decide)) rfl)
  let r := r.snoc (.inner _ _ _ _ (.tick _ false rfl) rfl)
  let r := r.snoc (.inner _ _ _ _ (.read _ false [] rfl) rfl)
  let r := r.snoc (.inner _ _ _ _ (.expired _ false [] [] rfl) rfl)
  let r := r.snoc (.inner _ _ _ _ (.retireLive _ false w (0 + 30) [] [] [] rfl rfl) rfl)
  let r := r.snoc (.inner _ _ _ _ (.retireSelect _ false w (0 + 30) [] [] [] rfl
    (.inr (zero_add (30 : ℚ)).le)) rfl)
  let r := r.snoc (.inner _ _ _ _ (.compose _ false [w] [] rfl) rfl)
  let r := r.snoc (.inner _ _ _ _ (.log _ [timeoutLine w] [w] true rfl (by simp)) rfl)
  let r := r.snoc (.inner _ _ _ _ (.lookup _ w [] false ⟨0, false⟩ rfl rfl rfl) rfl)
  r.snoc (.inner _ _ _ _ (.signal _ w [] false ⟨0, false⟩ rfl rfl rfl) rfl)

theorem kill_asked_terminated :
    (forwarded 15 (by decide)).label 24 = .inner (.signal ⟨7, 0⟩) ∧
      Justified (forwarded 15 (by decide)) 24 ⟨7, 0⟩ := by
  have hcall : ∀ i, i < 25 → ∀ sig, ((forwarded 15 (by decide)).state i).call = .retiring sig →
      sig = 15 := by
    intro i hi sig h
    have hall : ∀ i, i < 25 → (match ((forwarded 15 (by decide)).state i).call with
        | .retiring sig => decide (sig = 15)
        | _ => true) = true := by decide
    simpa [h] using hall i hi
  refine ⟨rfl, kill_asked (forwarded 15 (by decide)) ⟨⟨rfl, rfl, rfl⟩, rfl⟩ ?_ 24 _ (by decide) rfl⟩
  intro i sig w hi h hterm _
  exact absurd (.inl (hcall i hi sig h)) hterm

/-- A step that asks some worker to stop. -/
def asks : Label → Bool
  | .kill sig => decide (sig = 15 ∨ sig = 2 ∨ sig = 3 ∨ sig = 9)
  | .inner (.retire (some _)) => true
  | .inner (.read records) => !records.isEmpty
  | _ => false

theorem asks_of_asked (h : Asked w l) : asks l = true := by
  cases l with
  | kill sig =>
    rcases h with h | h
    · rcases h with rfl | rfl | rfl <;> rfl
    · rw [h]
      rfl
  | native sig => exact h.elim
  | inner l =>
    rcases h with rfl | ⟨records, rfl, rec, hmem, -⟩
    · rfl
    · cases records with
      | nil => exact absurd hmem List.not_mem_nil
      | cons => rfl

/-- **A forwarded `SIGUSR1` gets a healthy worker killed.** -/
theorem healthy_worker_killed :
    let r := forwarded 10 (by decide)
    Init (r.state 0) ∧ r.label 0 = .kill 10 ∧ r.label 24 = .inner (.signal ⟨7, 0⟩) ∧
      (r.state 24).controller.os.live ⟨7, 0⟩ = true ∧ ¬ Justified r 24 ⟨7, 0⟩ := by
  refine ⟨⟨⟨rfl, rfl, rfl⟩, rfl⟩, rfl, rfl, rfl, fun ⟨k, hk, h⟩ => ?_⟩
  have hnone : ∀ k, k < 24 → asks ((forwarded 10 (by decide)).label k) = false := by decide
  have := asks_of_asked h
  rw [hnone k hk] at this
  exact absurd this (by simp)

end LclFastapi.Runtime.Linux
