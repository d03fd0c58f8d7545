import LclFastapi.Background.Barrier
import Mathlib.Data.List.Count

/-!
# What a drain waits for comes

The other half of `drain`: it comes to its end, unless it meets finished tasks only.

* **`Served.head`**, `Served.onward`: until a drain is back at its test, the loop can serve the head
  of its queue, or an operation of the `gather` awaits something of its own.
* `tested`: from its test `drain` moves on when its tasks are not all finished.
* `ahead_step`: it passes through the body of its loop at most once, for the task set is empty when
  it resumes after its `gather`.
* `Served` is the invariant: the queue has one handle for each first or next step of an operation.
-/

namespace LclFastapi.Background.Bridge

open LclFastapi.Lib

variable {s t : State} {a : Label} {n : Nat}

/-! ## The invariant -/

/-- Every handle has its operation, and every wait of a drain its handle. -/
structure Served (s : State) : Prop where
  stage : Stage s
  start : ∀ i, s.queue.count (.start i) = if (s.op i).phase = .submitted then 1 else 0
  step : ∀ i, s.queue.count (.step i) =
    if (s.op i).phase = .created ∨ (s.op i).phase = .ready then 1 else 0
  closing : ∀ n, s.pc = .closing n → s.drain ≠ .idle
  requested : s.drain = .requested → .startDrain ∈ s.queue
  resumed : s.drain = .created ∨ s.drain = .woken → .stepDrain ∈ s.queue
  nonempty : ∀ children, s.drain = .waiting children → children ≠ ∅
  child : ∀ i ∈ s.drain.children, (s.op i).phase = .suspended ∨ (s.op i).phase = .ready ∨
    (s.op i).phase = .finished ∧ .gatherDone i ∈ s.queue

theorem Served.init (h : Init s) : Served s where
  stage := .init h
  start i := by simp [h.queue, h.op]
  step i := by simp [h.queue, h.op]
  closing n hn := by simp [h.pc] at hn
  requested hd := by simp [h.drain] at hd
  resumed hd := by simp [h.drain] at hd
  nonempty children hd := by simp [h.drain] at hd
  child i hi := by simp [h.drain, Drain.children] at hi

theorem count_report (i : Nat) (rest : List Handle) {y : Handle} (hy : y ≠ .stepDrain) :
    (s.report i rest).queue.count y = rest.count y := by
  rcases s.report_cases i rest with ⟨children, -, ⟨-, hr⟩ | hr⟩ | ⟨-, hr⟩ <;> rw [hr]
  simp [hy.symm]

theorem count_callbacks (i : Nat) {y : Handle} (hc : y ≠ .completed i) (hg : y ≠ .gatherDone i) :
    (s.callbacks i).count y = 0 := by
  unfold State.callbacks
  split <;> simp [hc.symm, hg.symm]

theorem Served.start_step (h : Served s) (hst : Step s a t) :
    ∀ i, t.queue.count (.start i) = if (t.op i).phase = .submitted then 1 else 0 := by
  intro j
  have hj := h.start j
  cases hst with
  | gatherDone i rest hq hfree =>
    rw [count_report i rest (by simp)]
    simpa [hq] using hj
  | finish i rest hq hfree hi =>
    rw [List.count_append, count_callbacks i (by simp) (by simp)]
    grind
  | _ => all_goals grind

theorem Served.step_step (h : Served s) (hst : Step s a t) :
    ∀ i, t.queue.count (.step i) =
      if (t.op i).phase = .created ∨ (t.op i).phase = .ready then 1 else 0 := by
  intro j
  have hj := h.step j
  cases hst with
  | gatherDone i rest hq hfree =>
    rw [count_report i rest (by simp)]
    simpa [hq] using hj
  | finish i rest hq hfree hi =>
    rw [List.count_append, count_callbacks i (by simp) (by simp)]
    grind
  | _ => all_goals grind

theorem Served.closing_step (h : Served s) (hst : Step s a t) :
    ∀ n, t.pc = .closing n → t.drain ≠ .idle := by
  intro n hn
  have hs := h.closing n
  cases hst with
  | gatherDone i rest hq hfree =>
    rw [State.report_pc] at hn
    rcases s.report_cases i rest with ⟨children, hd, ⟨-, hr⟩ | hr⟩ | ⟨-, hr⟩ <;> rw [hr]
    · exact nofun
    · exact nofun
    · exact hs hn
  | pass =>
    simp only [State.pass]
    split <;> simp
  | _ => all_goals grind

theorem Served.requested_step (h : Served s) (hst : Step s a t) :
    t.drain = .requested → .startDrain ∈ t.queue := by
  intro hd
  cases drain_step hst with
  | keep ht =>
    have hm := h.requested (ht ▸ hd)
    cases hst <;> grind [State.mem_report_queue]
  | request ht n hpc hq => simp [hq]
  | create ht | test ht | gather ht | report ht | wake ht | finish ht | reset ht => simp [ht] at hd

theorem Served.resumed_step (h : Served s) (hst : Step s a t) :
    t.drain = .created ∨ t.drain = .woken → .stepDrain ∈ t.queue := by
  intro hd
  cases drain_step hst with
  | keep ht =>
    have hm := h.resumed (ht ▸ hd)
    cases hst <;> grind [State.mem_report_queue]
  | create ht rest hdrain hq hfile => simp [hfile]
  | wake ht i rest children hw hq he hfile => simp [hfile]
  | request ht | test ht | gather ht | report ht | finish ht | reset ht => simp [ht] at hd

theorem Served.nonempty_step (h : Served s) (hst : Step s a t) :
    ∀ children, t.drain = .waiting children → children ≠ ∅ := by
  intro children hd
  have hs := h.nonempty children
  cases hst with
  | gatherDone i rest hq hfree => grind [State.report]
  | pass => grind [State.pass]
  | _ => all_goals grind

/-- A child that finishes files its report. -/
theorem Served.child_step (h : Served s) (hst : Step s a t) :
    ∀ i ∈ t.drain.children, (t.op i).phase = .suspended ∨ (t.op i).phase = .ready ∨
      (t.op i).phase = .finished ∧ .gatherDone i ∈ t.queue := by
  intro j hj
  have hs := h.child j
  cases hst with
  | gatherDone i rest hq hfree =>
    simp only [State.report] at hj ⊢
    grind [Drain.children]
  | pass =>
    have := h.stage.filed.begun j
    simp only [State.pass] at hj
    grind [Drain.children, State.unfinished]
  | finish i rest hq hfree hi => grind [State.callbacks, Drain.children]
  | _ => all_goals grind [Drain.children]

theorem Served.of_step (h : Served s) (hst : Step s a t) : Served t :=
  ⟨h.stage.step hst, h.start_step hst, h.step_step hst, h.closing_step hst, h.requested_step hst,
    h.resumed_step hst, h.nonempty_step hst, h.child_step hst⟩

/-! ## The loop goes on -/

/-- **The loop can serve whatever is at the head of the queue.** -/
theorem Served.head {x : Handle} {rest : List Handle} (h : Served s) (hfree : s.drain ≠ .testing)
    (hq : s.queue = x :: rest) : ∃ t, Step s .inner t ∧ t.queue.count x < s.queue.count x := by
  have hmem : x ∈ s.queue := by simp [hq]
  have hcount : s.queue.count x = rest.count x + 1 := by simp [hq]
  rw [hcount]
  cases x with
  | start i =>
    have hi : (s.op i).phase = .submitted := by
      by_contra hne
      exact List.count_eq_zero.mp ((h.start i).trans (if_neg hne)) hmem
    refine ⟨_, .start s i rest hq hfree hi, ?_⟩
    cases (s.op i).cancelled <;> simp
  | step i =>
    have hi : (s.op i).phase = .created ∨ (s.op i).phase = .ready := by
      by_contra hne
      exact List.count_eq_zero.mp ((h.step i).trans (if_neg hne)) hmem
    by_cases hc : (s.op i).phase = .created ∧ (s.op i).cancelling ≠ 0
    · exact ⟨_, .unstarted s i rest hq hfree hc.1 hc.2, Nat.lt_succ_self _⟩
    · refine ⟨_, .finish s i rest hq hfree ?_, ?_⟩
      · rcases hi with hi | hi
        · exact .inr ⟨hi, not_not.mp fun hne => hc ⟨hi, hne⟩⟩
        · exact .inl hi
      · rw [List.count_append, count_callbacks i (by simp) (by simp)]
        exact Nat.lt_succ_self _
  | cancelTask i => exact ⟨_, .cancelTask s i rest hq hfree, Nat.lt_succ_self _⟩
  | completed i => exact ⟨_, .completed s i rest hq hfree, Nat.lt_succ_self _⟩
  | gatherDone i =>
    refine ⟨_, .gatherDone s i rest hq hfree, ?_⟩
    rw [count_report i rest (by simp)]
    exact Nat.lt_succ_self _
  | startDrain =>
    exact ⟨_, .startDrain s rest hq (h.stage.startDrain hmem), by simp⟩
  | stepDrain =>
    exact ⟨_, .stepDrain s rest hq (h.stage.stepDrain hmem), Nat.lt_succ_self _⟩

/-- The next step of a drain that is at its test. -/
theorem tested (hd : s.drain = .testing) (hspin : ¬ Spinning s) :
    ∃ a t, Step s a t ∧ t.drain ≠ .testing ∧ t.queue = s.queue ∧
      (a = .inner ∨ ∃ targets, a = .pass targets) := by
  by_cases htasks : s.tasks = ∅
  · exact ⟨_, _, .drained s hd htasks, nofun, rfl, .inl rfl⟩
  · have hne : s.unfinished ≠ ∅ := fun he =>
      hspin ⟨hd, htasks, by simpa [State.unfinished, Finset.filter_eq_empty_iff] using he⟩
    exact ⟨_, _, .pass s hd htasks, by simp [State.pass, hne], rfl, .inr ⟨_, rfl⟩⟩

/-! ## What is ahead of an attempt -/

/-- How many passes of the body of `while self.tasks` may still come. -/
def State.passes (s : State) : Nat :=
  match s.drain with
  | .requested | .created => 1
  | .testing => if s.tasks = ∅ then 0 else 1
  | _ => 0

/-- The call of `close_attempt` and the passes of its drain that are ahead. -/
def State.ahead (s : State) : Nat :=
  match s.pc with
  | .entry _ => 2
  | .closing _ => s.passes
  | _ => 0

theorem State.passes_le (s : State) : s.passes ≤ 1 := by
  unfold State.passes
  repeat' split
  all_goals omega

theorem State.ahead_le (s : State) : s.ahead ≤ 2 := by
  have := s.passes_le
  unfold State.ahead
  split <;> omega

/-- The steps that `WorkerThread.run` takes, not the loop. -/
def Label.ofRun : Label → Bool
  | .close _ | .closed _ | .exit _ | .attempt _ => true
  | _ => false

/-- One pass of the body of `while self.tasks`. -/
def Label.isPass : Label → Bool
  | .pass _ => true
  | _ => false

theorem pc_step (hst : Step s a t) (ha : a.ofRun = false) : t.pc = s.pc := by
  cases hst with
  | close | closed | exit | attempt => cases ha
  | gatherDone => exact State.report_pc ..
  | _ => all_goals rfl

/-- When `drain` resumes after its `gather`, the callbacks of its tasks have been served. -/
theorem Stage.tasks_of_woken {rest : List Handle} (h : Stage s) (hd : s.drain = .woken)
    (hq : s.queue = .stepDrain :: rest) : s.tasks = ∅ := by
  obtain ⟨hstill, hlast⟩ := h.woken hd
  rw [hq] at hlast
  refine Finset.eq_empty_of_forall_notMem fun i hi => ?_
  have hfin : (s.op i).phase = .finished := by
    rcases hstill i with hp | hp
    · rcases h.filed.begun i hi with hb | hb | hb <;> simp [hp] at hb
    · exact hp
  have hm : .completed i ∈ rest := by simpa [hq] using h.filed.finished i hi hfin
  exact hlast.head _ hm (.inr ⟨i, rfl⟩)

theorem passes_congr (hd : t.drain = s.drain) (ht : s.drain = .testing → t.tasks = s.tasks) :
    t.passes = s.passes := by
  unfold State.passes
  rw [hd]
  cases h : s.drain with
  | testing => simp only [ht h]
  | _ => all_goals rfl

/-- **Each pass is the last one**, unless it is over finished tasks only. -/
theorem passes_step (h : Stage s) (hspin : ¬ Spinning s) (hst : Step s a t) (ha : a.ofRun = false) :
    t.passes + (if a.isPass then 1 else 0) ≤ s.passes := by
  have hkeep : a.isPass = false → t.drain = s.drain → (s.drain = .testing → t.tasks = s.tasks) →
      t.passes + (if a.isPass then 1 else 0) ≤ s.passes := fun hp hd ht => by
    simp [hp, passes_congr hd ht]
  cases hst with
  | close | closed | exit | attempt => cases ha
  | pass hdrain htasks =>
    have hne : s.unfinished ≠ ∅ := fun he =>
      hspin ⟨hdrain, htasks, by simpa [State.unfinished, Finset.filter_eq_empty_iff] using he⟩
    simp [State.passes, State.pass, Label.isPass, hdrain, htasks, hne]
  | drained => exact Nat.zero_le _
  | startDrain rest hq hdrain => simp [State.passes, Label.isPass, hdrain]
  | stepDrain rest hq hdrain =>
    rcases hdrain with hdrain | hdrain
    · simp only [State.passes, Label.isPass, hdrain]
      split <;> simp
    · simp [State.passes, Label.isPass, h.tasks_of_woken hdrain hq]
  | gatherDone i rest hq hfree =>
    rcases s.report_cases i rest with ⟨children, hd, ⟨-, hr⟩ | hr⟩ | ⟨-, hr⟩
    · simp [hr, State.passes, Label.isPass]
    · simp [hr, State.passes, Label.isPass]
    · exact hkeep rfl (by rw [hr]) fun _ => State.report_tasks ..
  | suspend i c rest hq hfree | finish i rest hq hfree | completed i rest hq hfree =>
    exact hkeep rfl rfl fun hd => absurd hd hfree
  | _ => all_goals exact hkeep rfl rfl fun _ => rfl

/-- **What is ahead of an attempt becomes less**, by the loop alone. -/
theorem ahead_step (h : Stage s) (hspin : ¬ Spinning s) (hst : Step s a t) (ha : a.ofRun = false) :
    t.ahead + (if a.isPass then 1 else 0) ≤ s.ahead := by
  have hpass : a.isPass = true → s.drain = .testing := fun hp => by
    cases hst with
    | pass hdrain => exact hdrain
    | _ => all_goals cases hp
  have hnone : s.drain ≠ .testing → (if a.isPass then 1 else 0) = 0 := fun hd =>
    if_neg fun hp => hd (hpass hp)
  simp only [State.ahead, pc_step hst ha]
  cases hpc : s.pc with
  | closing n => exact passes_step h hspin hst ha
  | entry n => simp [hnone, h.entry n hpc]
  | idle n | exiting n =>
    rcases (h.past n (by simp [hpc])).2 with hd | hd <;> simp [hnone, hd]

end LclFastapi.Background.Bridge
