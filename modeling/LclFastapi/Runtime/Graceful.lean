import LclFastapi.Runtime.Deadlines
import Mathlib.Tactic.IntervalCases
import Mathlib.Tactic.Linarith

/-!
# Graceful time and the wall clock (`ControllerLog.background_tick`)

Two tables feed the kills of a tick: `retirements` holds monotonic deadlines of the controller,
`stopping` holds the deadlines that workers announce in their journals, as readings of the wall
clock. A tick compares the second kind with its own wall clock.

* `Later` is what a retirement request establishes for good: no entry of `retirements` for the
  worker, in the table or in the snapshot of a tick, is due before the graceful time is over.
* `Patient` is what a tick without force keeps while no announced deadline is overtaken: the worker
  is not selected before that time.

**Headlines:** `graceful_time` for the runs in which the wall clock overtakes no announced
deadline of the worker early, and `clock_step_kills` for a run in which a clock step does.
-/

namespace LclFastapi.Runtime.Controller

open Lib (Dict Identity Processes Run)
open Background (JournalRecord)

variable {graceful bound : ℚ} {sid : Value} {s s' : State} {l : Label} {w : Identity}

/-! ## Statements -/

/-- Step `m` belongs to a tick without force. -/
def Unforced (r : Run (Step graceful sid)) (m : Nat) : Prop :=
  ∃ a, a < m ∧ r.label a = .tick false ∧ ∀ n, a < n → n < m → ∀ force, r.label n ≠ .tick force

/-- The worker armed at step `i` is not killed before its graceful time is over, unless with
force. -/
def GracefulTime (r : Run (Step graceful sid)) (i : Nat) (w : Identity) : Prop :=
  ∀ m, i < m → m < r.length → Unforced r m → r.label m = .signal w →
    (r.state i).clock + graceful ≤ (r.state m).clock

/-- A tick without force compares the wall clock with a deadline that `w` has announced, before the
monotonic time `bound`, and finds it reached. -/
def Overtaken (w : Identity) (bound : ℚ) (s : State) (l : Label) : Prop :=
  l ≠ .environment ∧ s.clock < bound ∧ ∃ pid record deadline todo expired events,
    s.pc = .expireDue false pid record todo expired events ∧ record.identity = w ∧
      record.deadline = some deadline ∧ deadline ≤ s.wall

/-! ## The monotonic table -/

/-- What a tick has still to compare of its copy of `retirements`. -/
def PC.snapshot : PC → List (Identity × ℚ)
  | .retiring _ todo _ _ => todo
  | .retireDue _ w deadline todo _ _ => (w, deadline) :: todo
  | _ => []

/-- No monotonic deadline of `w` is before `bound`, and none will be. -/
structure Later (graceful : ℚ) (w : Identity) (bound : ℚ) (s : State) : Prop where
  clock : bound ≤ s.clock + graceful
  table : ∀ d, s.retirements.get? w = some d → bound ≤ d
  snapshot : ∀ d, (w, d) ∈ s.pc.snapshot → bound ≤ d

theorem later_step (h : Step graceful sid s l s') (hs : Later graceful w bound s) :
    Later graceful w bound s' := by
  obtain ⟨hclock, htable, hsnapshot⟩ := hs
  have herase {v : Identity} (d : ℚ) (hd : (s.retirements.erase v).get? w = some d) :
      bound ≤ d := by
    rw [Dict.get?_erase] at hd
    split at hd
    · cases hd
    · exact htable d hd
  cases h
  case os | publish => exact ⟨hclock, htable, hsnapshot⟩
  case time clock wall hmono =>
    exact ⟨hclock.trans (by gcongr), htable, hsnapshot⟩
  case arm v todo hpc =>
    refine ⟨hclock, fun d hd => ?_, fun d hd => absurd hd List.not_mem_nil⟩
    rw [Dict.get?_setdefault] at hd
    split at hd
    · rename_i hv
      rw [← hv] at hd
      cases hget : s.retirements.get? w with
      | none =>
        rw [hget] at hd
        cases hd
        exact hclock
      | some armed =>
        rw [hget] at hd
        cases hd
        exact htable armed hget
    · exact htable d hd
  case expired => exact ⟨hclock, htable, fun d hd => htable d (Dict.mem_entries.mp hd)⟩
  case retireLive v d todo expired events hpc hlive =>
    rw [hpc] at hsnapshot
    exact ⟨hclock, htable, hsnapshot⟩
  case retireDead hpc hdead =>
    rw [hpc] at hsnapshot
    exact ⟨hclock, herase, fun d hd => hsnapshot d (.tail _ hd)⟩
  case retireSelect hpc hdue =>
    rw [hpc] at hsnapshot
    exact ⟨hclock, herase, fun d hd => hsnapshot d (.tail _ hd)⟩
  case retireKeep hpc hdue =>
    rw [hpc] at hsnapshot
    exact ⟨hclock, htable, fun d hd => hsnapshot d (.tail _ hd)⟩
  all_goals exact ⟨hclock, htable, fun d hd => absurd hd List.not_mem_nil⟩

/-! ## A tick without force -/

/-- The argument of the tick, while a selection depends on it. -/
def PC.forced : PC → Bool
  | .reading force | .expiring force _ _ _ | .expireDue force _ _ _ _ _ | .retiring force _ _ _
  | .retireDue force _ _ _ _ _ => force
  | _ => false

/-- No tick with force is selecting, and `w` is selected at `bound` or later. -/
structure Patient (w : Identity) (bound : ℚ) (s : State) : Prop where
  unforced : s.pc.forced = false
  selected : w ∈ s.pc.chosen → bound ≤ s.clock

theorem patient_step (h : Step graceful sid s l s') (hl : Later graceful w bound s)
    (hs : Patient w bound s) :
    Patient w bound s' ∨ (∃ force, l = .tick force) ∨ Overtaken w bound s l := by
  obtain ⟨hforce, hselected⟩ := hs
  cases h
  case tick force hpc => exact .inr (.inl ⟨force, rfl⟩)
  case os | publish => exact .inl ⟨hforce, hselected⟩
  case time clock wall hmono => exact .inl ⟨hforce, fun hw => (hselected hw).trans hmono⟩
  case expireSelect force pid record d todo expired events hpc hd hdue =>
    rw [hpc] at hforce hselected
    obtain rfl : force = false := hforce
    have hreached : d ≤ s.wall := hdue.resolve_left Bool.false_ne_true
    rcases lt_or_ge s.clock bound with hearly | hlate
    · by_cases hw : record.identity = w
      · exact .inr (.inr ⟨nofun, hearly, pid, record, d, todo, expired, events, hpc, hw, hd,
          hreached⟩)
      · refine .inl ⟨rfl, fun hm => hselected ?_⟩
        rcases List.mem_append.mp hm with hm | hm
        · exact hm
        · exact absurd (List.mem_singleton.mp hm).symm hw
    · exact .inl ⟨rfl, fun _ => hlate⟩
  case retireSelect force v d todo expired events hpc hdue =>
    have hsnapshot := hl.snapshot
    rw [hpc] at hforce hselected hsnapshot
    obtain rfl : force = false := hforce
    refine .inl ⟨rfl, fun hm => ?_⟩
    rcases List.mem_append.mp hm with hm | hm
    · exact hselected hm
    · obtain rfl := List.mem_singleton.mp hm
      exact (hsnapshot d (.head _)).trans (hdue.resolve_left Bool.false_ne_true)
  case compose hpc =>
    rw [hpc] at hselected
    exact .inl ⟨rfl, fun hm => hselected (Dict.mem_distinct.mp hm)⟩
  case lookup v todo failed p hpc htable hcreated =>
    rw [hpc] at hselected
    refine .inl ⟨rfl, fun hm => hselected ?_⟩
    rw [hcreated] at hm
    exact hm
  case lookupOther | signal | gone =>
    rw [‹s.pc = _›] at hselected
    exact .inl ⟨rfl, fun hm => hselected (.tail _ hm)⟩
  case read | readFail =>
    rw [‹s.pc = _›] at hforce
    exact .inl ⟨hforce, fun hm => absurd hm List.not_mem_nil⟩
  all_goals first
    | exact .inl ⟨rfl, fun hm => absurd hm List.not_mem_nil⟩
    | (rw [‹s.pc = _›] at hforce hselected; exact .inl ⟨hforce, hselected⟩)

/-! ## Runs -/

variable {r : Run (Step graceful sid)} {i : Nat}

/-- The request that arms a worker gives it the graceful time. -/
theorem later_of_arm (h : Step graceful sid s (.arm w) s') (hnew : s.retirements.get? w = none) :
    Later graceful w (s.clock + graceful) s' ∧ Patient w (s.clock + graceful) s' := by
  have harmed := armed_of_arm h hnew
  cases h
  refine ⟨⟨le_rfl, fun d hd => ?_, fun d hd => absurd hd List.not_mem_nil⟩,
    rfl, fun hm => absurd hm List.not_mem_nil⟩
  exact (Option.some.inj (harmed.symm.trans hd)).le

theorem patient_of_tick (h : Step graceful sid s (.tick false) s') : Patient w bound s' := by
  cases h
  exact ⟨rfl, fun hm => absurd hm List.not_mem_nil⟩

/-- **The graceful time holds in every run in which the wall clock overtakes no deadline announced
by the worker before that time is over.** -/
theorem graceful_time (r : Run (Step graceful sid)) {i : Nat} {w : Identity}
    (harm : r.label i = .arm w) (hnew : (r.state i).retirements.get? w = none)
    (hwall : ∀ k, i < k → k < r.length →
      ¬ Overtaken w ((r.state i).clock + graceful) (r.state k) (r.label k)) :
    GracefulTime r i w := by
  rintro m him hm ⟨a, ham, htick, hfirst⟩ hsignal
  have hi := him.trans hm
  obtain ⟨hlater, hpatient⟩ := later_of_arm (harm ▸ r.step_ok i hi) hnew
  -- the stretch begins with the later of the request and the tick
  have hstart : ∃ j, i < j ∧ a < j ∧ j ≤ m ∧
      Patient w ((r.state i).clock + graceful) (r.state j) := by
    rcases Nat.lt_trichotomy i a with hia | rfl | hai
    · exact ⟨a + 1, by omega, by omega, ham, patient_of_tick (htick ▸ r.step_ok a (ham.trans hm))⟩
    · rw [harm] at htick
      cases htick
    · exact ⟨i + 1, by omega, by omega, him, hpatient⟩
  obtain ⟨j, hij, haj, hjm, hj⟩ := hstart
  have hlate {k : Nat} (hik : i < k) (hk : k ≤ r.length) :
      Later graceful w ((r.state i).clock + graceful) (r.state k) :=
    r.stays (fun _ _ _ h hs => later_step h hs) hik hk hlater
  rcases r.holds_unless
      (P := fun s => Later graceful w ((r.state i).clock + graceful) s ∧
        Patient w ((r.state i).clock + graceful) s)
      (E := fun s l => (∃ force, l = .tick force) ∨
        Overtaken w ((r.state i).clock + graceful) s l)
      (fun _ _ _ h hs => (patient_step h hs.1 hs.2).imp_left fun hp => ⟨later_step h hs.1, hp⟩)
      hjm hm.le ⟨hlate hij (hjm.trans hm.le), hj⟩ with ⟨-, hs⟩ | ⟨k, hjk, hkm, ⟨force, hk⟩ | hk⟩
  · exact hs.selected (chosen_of_signal (hsignal ▸ r.step_ok m hm))
  · exact absurd hk (hfirst k (by omega) hkm force)
  · exact absurd hk (hwall k (by omega) (hkm.trans hm))

theorem graceful_time_stuckWorker : GracefulTime stuckWorker 1 ⟨7, 0⟩ := by
  refine graceful_time stuckWorker rfl rfl fun k hik hk => ?_
  rintro ⟨-, -, pid, record, deadline, todo, expired, events, hpc, -⟩
  have hlength : stuckWorker.length = 14 := rfl
  rw [hlength] at hk
  interval_cases k <;> cases hpc

/-! ### The wall clock is set forward while a worker stops -/

/-- `{"level": 20, "message": "background stopping", "deadline": 30, ...}` of the worker. -/
def announced : JournalRecord where
  identity := ⟨7, 0⟩
  service_id := .str "start"
  level := 20
  message := "background stopping"
  deadline := some 30
  retired := false
  sequence := 1

/-- The worker is armed at monotonic and wall time 0; at monotonic time 1 the wall clock is 100. -/
def clockStep : Run (Step 30 (.str "start")) :=
  let w : Identity := ⟨7, 0⟩
  let r := armedAtZero.snoc (.time _ 1 100 (by show (0 : ℚ) ≤ 1; decide))
  let r := r.snoc (.tick _ false rfl)
  let r := r.snoc (.read _ false [announced] rfl)
  let r := r.snoc (.expireLive _ false 7 announced [] [] [(20, "background stopping")] rfl rfl)
  let r := r.snoc (.expireSelect _ false 7 announced 30 [] [] [(20, "background stopping")] rfl rfl
    (.inr (by show (30 : ℚ) ≤ 100; decide)))
  let r := r.snoc (.expired _ false [w] [(20, "background stopping")] rfl)
  let r := r.snoc (.retireLive _ false w (0 + 30) [] [w] [(20, "background stopping")] rfl rfl)
  let r := r.snoc (.retireKeep _ w (0 + 30) [] [w] [(20, "background stopping")] rfl
    (by show (1 : ℚ) < 0 + 30; norm_num))
  let r := r.snoc (.compose _ false [w] [(20, "background stopping")] rfl)
  let r := r.snoc (.log _ [(20, "background stopping"), timeoutLine w] [w] true rfl (by simp))
  let r := r.snoc (.lookup _ w [] false ⟨0, false⟩ rfl rfl rfl)
  r.snoc (.signal _ w [] false ⟨0, false⟩ rfl rfl rfl)

/-- **A step of the wall clock shortens the graceful time.** -/
theorem clock_step_kills :
    ¬ ∀ r : Run (Step 30 (.str "start")), Init (r.state 0) → ∀ i w, i < r.length →
      r.label i = .arm w → (r.state i).retirements.get? w = none → GracefulTime r i w := by
  intro h
  have htick : Unforced clockStep 14 := by
    refine ⟨4, by decide, rfl, fun n hn hnm force => ?_⟩
    interval_cases n <;> nofun
  have hkill := h clockStep ⟨rfl, rfl, rfl⟩ 1 ⟨7, 0⟩ (by decide) rfl rfl 14 (by decide) (by decide)
    htick rfl
  have hearly : ¬ (0 : ℚ) + 30 ≤ 1 := by norm_num
  exact hearly hkill

end LclFastapi.Runtime.Controller
