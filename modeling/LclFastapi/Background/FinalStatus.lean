import LclFastapi.Background.History
import LclFastapi.Background.Promises

/-!
# The status of a worker thread that has exited (`background/thread.py`)

For every interleaving of `WorkerThread.run` with any number of `stop` calls.

* **`final_status`**: once `done` is resolved, the status is final and says how the last attempt has
  ended, in every run whose thread never finds itself told to stop at the test after a restart
  (`Late`).
* `late_restarting`: a thread that does exits with the status `restarting`, unless its own cleanup
  fails.
* `restarting_forever`: a `stop` that comes between the delay and the test.
-/

namespace LclFastapi.Background.Thread

open LclFastapi.Lib
open LclFastapi.Background.History (outcomeStatus raised)

variable {auto_restart : Bool} {s t : State} {a : Label} {n : Nat}

/-! ## Attempts are counted -/

/-- The attempts of the record at a program point. -/
def Counted (attempts : Nat) : PC → Prop
  | .new | .entering | .initializing | .publishing | .readying => attempts = 0
  | .head n => attempts = n
  | .running n => n = attempts + 1
  | .setup n | .invoking n | .executing n | .registering n | .awaiting n | .clearing n _
  | .settling n _ | .closing n _ _ | .exiting n _ _ | .delaying n _ | .restarting n _ =>
    attempts = n ∧ 0 < n
  | _ => True

theorem counted_step (hst : Step auto_restart s a t) (h : Counted s.record.attempts s.pc) :
    Counted t.record.attempts t.pc ∧ s.record.attempts ≤ t.record.attempts := by
  cases hst with
  | cancel | stop | stopTask | stopIdle => exact ⟨h, Nat.le_refl _⟩
  | fail | enterFail | leave | exitRaise | finish | aclose | acloseFail | drop | handleReady | done
  | handle => exact ⟨trivial, Nat.le_refl _⟩
  | escape m level hpc =>
    rcases hpc with hpc | ⟨type, hpc⟩ <;> rw [hpc] at h <;> exact ⟨h, Nat.le_refl _⟩
  | closeRunner raised again hpc =>
    cases raised <;> cases again <;> exact ⟨trivial, Nat.le_refl _⟩
  | next m hpc =>
    rw [hpc] at h
    exact ⟨congrArg Nat.succ h.symm, Nat.le_refl _⟩
  | running m hpc =>
    rw [hpc] at h
    obtain rfl : m = s.record.attempts + 1 := h
    exact ⟨⟨rfl, Nat.succ_pos _⟩, Nat.le_succ _⟩
  | completed m hpc | stopped m hpc | failed m type hpc =>
    rw [hpc] at h
    exact ⟨⟨rfl, h.2⟩, h.1.le⟩
  | restarting m level hpc =>
    rw [hpc] at h
    exact ⟨rfl, h.1.le⟩
  | _ =>
    all_goals
      rw [‹s.pc = _›] at h
      exact ⟨h, Nat.le_refl _⟩

/-- An executable is called in the attempt of the record, which is not the zeroth. -/
theorem counted_invoke (hst : Step auto_restart s (.invoke n) t)
    (h : Counted s.record.attempts s.pc) : s.record.attempts = n ∧ 0 < n := by
  cases hst with
  | invoke m hpc =>
    rw [hpc] at h
    exact h

/-! ## The record at each program point -/

/-- The thread has not run, or its last attempt has ended as the record says. -/
def Settled (ended : Nat → Outcome → Prop) (x : Snapshot) : Prop :=
  x.status = .starting ∧ x.attempts = 0 ∨
    ∃ o, ended x.attempts o ∧ outcomeStatus o = some x.status

/-- The record at a program point, for attempts that have ended so and a thread that may fail. -/
def Standing (ended : Nat → Outcome → Prop) (failed : Prop) (x : Snapshot) (ready : Promise) :
    PC → Prop
  | .new | .entering | .initializing | .publishing | .readying => x.status = .starting
  | .head n => n = 0 → x.status = .starting
  | .closing _ _ false | .exiting _ _ false | .delaying _ _ | .tearing false | .dropping false
  | .leaving false => Settled ended x
  | .closing _ _ true | .exiting _ _ true | .tearing true | .dropping true | .leaving true
  | .handling => ready = .pending → x.status = .starting ∧ x.attempts = 0
  | .finishing | .finished => Settled ended x ∨ x.status = .failed ∧ failed
  | _ => True

/-- The test of `stop_event` after a restart is about to find it set. -/
def Late (s : State) : Prop :=
  s.stop_event = true ∧ ∃ n, s.pc = .head (n + 1)

variable {ended : Nat → Outcome → Prop} {failed : Prop}

theorem standing_step (hst : Step auto_restart s a t) (hlate : ¬ Late s)
    (hend : ∀ n o, s.pc = .settling n o → ended n o) (hfail : raised s.pc = true → failed)
    (hallows : s.pc.allows s.ready = true) (hcount : Counted s.record.attempts s.pc)
    (h : Standing ended failed s.record s.ready s.pc) :
    Standing ended failed t.record t.ready t.pc := by
  have hresult : ∀ {P : Prop}, (s.ready == .result) = true → s.ready = .pending → P := by
    intro P hr hp
    rw [hp] at hr
    cases hr
  cases hst with
  | cancel | stop | stopTask | stopIdle => exact h
  | start hpc | enter hpc | initialized hpc | publish hpc | exitRaise m level hpc
  | exit m level hpc | finish m level hpc | done hpc =>
    rw [hpc] at h
    exact h
  | ready hpc =>
    rw [hpc] at h
    exact fun _ => h
  | fail hpc =>
    rcases hpc with hpc | ⟨m, hpc⟩ | ⟨m, level, raised, hpc⟩ <;> rw [hpc] at h hallows hcount
    · exact fun _ => ⟨h, hcount⟩
    · exact hresult hallows
    · exact hresult hallows
  | enterFail hpc =>
    rw [hpc] at h hcount
    exact fun _ => ⟨h, hcount⟩
  | leave m hpc hstop =>
    rw [hpc] at h hcount
    cases m with
    | zero => exact .inl ⟨h rfl, hcount⟩
    | succ m => exact absurd ⟨hstop, m, hpc⟩ hlate
  | completed m hpc | stopped m hpc | failed m type hpc => exact .inr ⟨_, hend _ _ hpc, rfl⟩
  | escape m level hpc =>
    rcases hpc with hpc | ⟨type, hpc⟩ <;> rw [hpc] at hallows <;> exact hresult hallows
  | close m level raised again hpc =>
    rw [hpc] at h hallows
    cases raised <;> cases again <;> first | exact h | exact hresult hallows
  | restarting m level hpc =>
    rw [hpc] at hcount
    rintro rfl
    exact absurd hcount.2 (Nat.lt_irrefl 0)
  | aclose raised hpc | drop raised hpc =>
    rw [hpc] at h
    cases raised <;> exact h
  | acloseFail raised hpc =>
    rw [hpc] at h hallows
    cases raised
    · exact hresult hallows
    · exact h
  | closeRunner raised again hpc =>
    rw [hpc] at h hallows
    cases raised <;> cases again
    · exact .inl h
    · exact hresult hallows
    · exact h
    · exact h
  | handleReady hpc hready =>
    rw [hpc] at h
    exact .inl (.inl (h hready))
  | handle type hpc hready => exact .inr ⟨rfl, hfail (by rw [hpc]; rfl)⟩
  | _ => all_goals trivial

/-- An exception is on its way out, or the thread has ended with it. -/
def Doomed (s : State) : Prop :=
  raised s.pc = true ∨
    (s.pc = .finishing ∨ s.pc = .finished) ∧
      (s.record.status = .failed ∨ s.record.status = .starting)

theorem doomed_step (hst : Step auto_restart s a t)
    (hstand : Standing ended failed s.record s.ready s.pc) (h : Doomed s) : Doomed t := by
  cases hst with
  | cancel | stop | stopTask | stopIdle => exact h
  | fail | enterFail | exitRaise | acloseFail => exact .inl rfl
  | escape m level hpc => exact .inl rfl
  | close m level raised again hpc =>
    obtain rfl : raised = true := by simpa [Doomed, hpc, History.raised] using h
    exact .inl rfl
  | aclose raised hpc | drop raised hpc =>
    obtain rfl : raised = true := by simpa [Doomed, hpc, History.raised] using h
    exact .inl rfl
  | closeRunner raised again hpc =>
    obtain rfl : raised = true := by simpa [Doomed, hpc, History.raised] using h
    exact .inl rfl
  | handleReady hpc hready =>
    rw [hpc] at hstand
    exact .inr ⟨.inl rfl, .inr (hstand hready).1⟩
  | handle => exact .inr ⟨.inl rfl, .inl rfl⟩
  | done hpc =>
    have hfinal : s.record.status = .failed ∨ s.record.status = .starting := by
      simpa [Doomed, hpc, History.raised] using h
    exact .inr ⟨.inr rfl, hfinal⟩
  | _ => all_goals simp [Doomed, ‹s.pc = _›, History.raised] at h

/-! ## The final status -/

section Runs

variable (r : Run (Step auto_restart))

/-- The entry of attempt `n` has ended so. -/
def Ended (n : Nat) (o : Outcome) : Prop :=
  ∃ i, i ≤ r.length ∧ (r.state i).pc = .settling n o

/-- An exception has been on its way out of the thread. -/
def Failed : Prop :=
  ∃ i, i ≤ r.length ∧ raised (r.state i).pc = true

/-- A status says how the last attempt, of this number, has ended. -/
def Agrees (attempts : Nat) : Status → Prop
  | .starting => ∀ i n, i < r.length → r.label i ≠ .invoke n
  | .completed => Ended r attempts .normal ∧ ¬ Failed r
  | .stopped => Ended r attempts .cancelled ∧ ¬ Failed r
  | .failed => Failed r ∨ ∃ type, Ended r attempts (.exception type)
  | .running | .restarting => False

/-- **What is asserted of the last record of a run whose thread has exited.** -/
structure Final : Prop where
  agrees : Agrees r (r.state r.length).record.attempts (r.state r.length).record.status
  /-- No later attempt has called the executable. -/
  last : ∀ i n, i < r.length → r.label i = .invoke n → n ≤ (r.state r.length).record.attempts

variable {r}

theorem counted (h0 : Init (r.state 0)) :
    ∀ i, i ≤ r.length → Counted (r.state i).record.attempts (r.state i).pc := by
  refine r.invariant (P := fun s => Counted s.record.attempts s.pc) ?_
    fun _ _ _ hst h => (counted_step hst h).1
  rw [h0.pc, h0.record]
  rfl

theorem standing (h0 : Init (r.state 0)) (hlate : ∀ i, i < r.length → ¬ Late (r.state i)) :
    ∀ i, i ≤ r.length → Standing (Ended r) (Failed r) (r.state i).record (r.state i).ready
      (r.state i).pc := by
  intro i hi
  induction i with
  | zero =>
    rw [h0.pc, h0.record]
    rfl
  | succ i ih =>
    have hle := Nat.le_of_succ_le hi
    have hallows := r.invariant (P := fun s => s.pc.allows s.ready = true) (allows_init h0)
      fun _ _ _ hst h => allows_step hst h
    exact standing_step (r.step_ok i hi) (hlate i hi) (fun n o hn => ⟨i, hle, hn⟩)
      (fun hr => ⟨i, hle, hr⟩) (hallows i hle) (counted h0 i hle) (ih hle)

theorem invoked (h0 : Init (r.state 0)) {i : Nat} (hi : i < r.length)
    (hn : r.label i = .invoke n) : 0 < n ∧ n ≤ (r.state r.length).record.attempts := by
  obtain ⟨hcount, hpos⟩ := counted_invoke (hn ▸ r.step_ok i hi) (counted h0 i hi.le)
  refine ⟨hpos, ?_⟩
  have hstay := r.stays
    (P := fun s => Counted s.record.attempts s.pc ∧ n ≤ s.record.attempts)
    (fun _ _ _ hst h => ⟨(counted_step hst h.1).1, h.2.trans (counted_step hst h.1).2⟩)
    hi.le (Nat.le_refl r.length) ⟨counted h0 i hi.le, hcount.ge⟩
  exact hstay.2

/-- A thread that fails exits as `failed`, or has not run. -/
theorem status_of_failed (h0 : Init (r.state 0)) (hlate : ∀ i, i < r.length → ¬ Late (r.state i))
    (hfin : (r.state r.length).pc = .finished) (hf : Failed r) :
    (r.state r.length).record.status = .failed ∨ (r.state r.length).record.status = .starting := by
  obtain ⟨k, hk, hr⟩ := hf
  have hstand := standing h0 hlate
  have hdoomed : ∀ j, k ≤ j → j ≤ r.length → Doomed (r.state j) := by
    intro j hkj hj
    induction j, hkj using Nat.le_induction with
    | base => exact .inl hr
    | succ j hkj ih =>
      have hle := Nat.le_of_succ_le hj
      exact doomed_step (r.step_ok j hj) (hstand j hle) (ih hle)
  have hlast := hdoomed r.length hk (Nat.le_refl _)
  rw [Doomed, hfin] at hlast
  exact (hlast.resolve_left Bool.false_ne_true).2

theorem final (h0 : Init (r.state 0)) (hlate : ∀ i, i < r.length → ¬ Late (r.state i))
    (hfin : (r.state r.length).pc = .finished) : Final r := by
  refine ⟨?_, fun i n hi hn => (invoked h0 hi hn).2⟩
  have hstand := standing h0 hlate r.length (Nat.le_refl _)
  have hdoomed := status_of_failed h0 hlate hfin
  rw [hfin] at hstand
  rcases hstand with (⟨hs, hzero⟩ | ⟨o, hend, ho⟩) | ⟨hs, hf⟩
  · rw [hs]
    intro i n hi hn
    have hpos := invoked h0 hi hn
    omega
  · cases o with
    | normal =>
      have hs : (r.state r.length).record.status = .completed := (Option.some.inj ho).symm
      rw [hs] at hdoomed ⊢
      exact ⟨hend, fun hf => by simpa using hdoomed hf⟩
    | cancelled =>
      have hs : (r.state r.length).record.status = .stopped := (Option.some.inj ho).symm
      rw [hs] at hdoomed ⊢
      exact ⟨hend, fun hf => by simpa using hdoomed hf⟩
    | exception type =>
      have hs : (r.state r.length).record.status = .failed := (Option.some.inj ho).symm
      rw [hs]
      exact .inr ⟨type, hend⟩
    | base => cases ho
  · rw [hs]
    exact .inl hf

/-- **The status of a thread that has exited.** -/
theorem final_status (r : Run (Step auto_restart)) (h0 : Init (r.state 0))
    (hlate : ∀ i, i < r.length → ¬ Late (r.state i)) :
    ∀ i (hi : i ≤ r.length), (r.state i).done = true → Final (r.take i hi) := by
  intro i hi hd
  have hdone := r.invariant (P := fun s => s.done = true ↔ s.pc = .finished) (done_init h0)
    fun _ _ _ hst h => done_step hst h
  exact final (r := r.take i hi) h0 (fun k hk => hlate k (hk.trans_le hi)) ((hdone i hi).mp hd)

end Runs

/-! ## A stop between the delay and the test -/

/-- The thread leaves its loop at the test after a restart. -/
structure Leaving (s : State) : Prop where
  status : s.record.status = .restarting
  pc : Late s ∨ s.pc = .tearing false ∨ s.pc = .dropping false ∨ s.pc = .leaving false ∨
    s.pc = .finishing ∨ s.pc = .finished

/-- Such a thread goes on to its end with that status, unless its own cleanup fails. -/
theorem leaving_step (hst : Step auto_restart s a t) (h : Leaving s) :
    Leaving t ∨ raised t.pc = true := by
  obtain ⟨hs, hpc'⟩ := h
  cases hst with
  | cancel | stopTask | stopIdle => exact .inl ⟨hs, hpc'⟩
  | stop => exact .inl ⟨hs, hpc'.imp_left fun hl => ⟨rfl, hl.2⟩⟩
  | leave m hpc hstop => exact .inl ⟨hs, .inr (.inl rfl)⟩
  | next m hpc hstop => simp [Late, hpc, hstop] at hpc'
  | aclose raised hpc =>
    obtain rfl : raised = false := by simpa [Late, hpc] using hpc'
    exact .inl ⟨hs, .inr (.inr (.inl rfl))⟩
  | acloseFail => exact .inr rfl
  | drop raised hpc =>
    obtain rfl : raised = false := by simpa [Late, hpc] using hpc'
    exact .inl ⟨hs, .inr (.inr (.inr (.inl rfl)))⟩
  | closeRunner raised again hpc =>
    obtain rfl : raised = false := by simpa [Late, hpc] using hpc'
    cases again
    · exact .inl ⟨hs, .inr (.inr (.inr (.inr (.inl rfl))))⟩
    · exact .inr rfl
  | done => exact .inl ⟨hs, .inr (.inr (.inr (.inr (.inr rfl))))⟩
  | fail hpc =>
    rcases hpc with hpc | ⟨m, hpc⟩ | ⟨m, level, raised, hpc⟩ <;> simp [Late, hpc] at hpc'
  | escape m level hpc => rcases hpc with hpc | ⟨type, hpc⟩ <;> simp [Late, hpc] at hpc'
  | _ => all_goals simp [Late, ‹s.pc = _›] at hpc'

/-- At the test after a restart the record says `restarting`. -/
theorem restarted_step (hst : Step auto_restart s a t)
    (h : ∀ n, s.pc = .head (n + 1) → s.record.status = .restarting) :
    ∀ n, t.pc = .head (n + 1) → t.record.status = .restarting := by
  intro n hn
  cases hst with
  | cancel | stop | stopTask | stopIdle => exact h n hn
  | restarting => rfl
  | closeRunner raised again hpc => cases raised <;> cases again <;> cases hn
  | _ => all_goals cases hn

/-- **A thread that is late exits as `restarting`**, unless its own cleanup fails. -/
theorem late_restarting (r : Run (Step auto_restart)) (h0 : Init (r.state 0)) {i j : Nat}
    (hij : i ≤ j) (hj : j ≤ r.length) (hlate : Late (r.state i))
    (hok : ∀ k, i ≤ k → k ≤ j → raised (r.state k).pc = false) :
    (r.state j).record.status = .restarting := by
  have hrestarted := r.invariant
    (P := fun s => ∀ n, s.pc = .head (n + 1) → s.record.status = .restarting)
    (fun n hn => by simp [h0.pc] at hn) fun _ _ _ hst h => restarted_step hst h
  obtain ⟨n, hn⟩ := hlate.2
  have hleaving : Leaving (r.state j) := by
    induction j, hij using Nat.le_induction with
    | base => exact ⟨hrestarted i hj n hn, .inl hlate⟩
    | succ j hij ih =>
      have hprev := ih (Nat.le_of_succ_le hj) fun k hik hkj => hok k hik (Nat.le_succ_of_le hkj)
      refine (leaving_step (r.step_ok j hj) hprev).resolve_right fun hr => ?_
      rw [hok (j + 1) (Nat.le_succ_of_le hij) (Nat.le_refl _)] at hr
      cases hr
  exact hleaving.status

/-- The first attempt returns, and the delay runs out. -/
def returned : Run (Step true) :=
  let r := invokedOnce.snoc (.execute _ 1 .normal rfl)
  let r := r.snoc (.completed _ 1 rfl)
  let r := r.snoc (.close _ 1 INFO false false rfl)
  r.snoc (.exit _ 1 INFO rfl)

/-- The stop comes in the delay. -/
def stoppedInDelay : Run (Step true) :=
  let r := returned.snoc (.stop _ 0 rfl)
  let r := r.snoc (.finish _ 1 INFO rfl (.inr rfl))
  let r := r.snoc (.aclose _ false rfl)
  let r := r.snoc (.drop _ false rfl)
  let r := r.snoc (.closeRunner _ false false rfl)
  r.snoc (.done _ rfl)

/-- The stop comes after it. -/
def stoppedAfterDelay : Run (Step true) :=
  let r := returned.snoc (.timeout _ 1 INFO rfl rfl)
  let r := r.snoc (.stop _ 0 rfl)
  let r := r.snoc (.restarting _ 1 INFO rfl)
  let r := r.snoc (.leave _ 1 rfl rfl)
  let r := r.snoc (.aclose _ false rfl)
  let r := r.snoc (.drop _ false rfl)
  let r := r.snoc (.closeRunner _ false false rfl)
  r.snoc (.done _ rfl)

theorem final_status_stoppedInDelay :
    Final (stoppedInDelay.take 19 (Nat.le_refl 19)) ∧
      (stoppedInDelay.state 19).record = ⟨.completed, 1, 0⟩ := by
  refine ⟨final_status stoppedInDelay constructed_init ?_ 19 (Nat.le_refl 19) rfl, rfl⟩
  have hall : ∀ i, i < 19 → (match (stoppedInDelay.state i).pc with
      | .head (_ + 1) => (stoppedInDelay.state i).stop_event
      | _ => false) = false := by decide
  rintro i hi ⟨hstop, n, hn⟩
  have := hall i hi
  simp only [hn, hstop] at this
  cases this

/-- **A thread that is told to stop between its delay and its test exits as `restarting`.** -/
theorem restarting_forever :
    Init (stoppedAfterDelay.state 0) ∧ stoppedAfterDelay.length = 21 ∧
      (stoppedAfterDelay.state 21).done = true ∧
      (stoppedAfterDelay.state 21).record = ⟨.restarting, 1, 0⟩ ∧
      ¬ Final (stoppedAfterDelay.take 21 (Nat.le_refl 21)) :=
  ⟨constructed_init, rfl, rfl, rfl, fun h => h.agrees⟩

end LclFastapi.Background.Thread
