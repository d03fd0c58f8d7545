import LclFastapi.Runtime.Reload

/-!
# Hot reload retires each worker once, for a change

The two flags of the watcher summarize its history. `Expected` says what `pending` stands for at
each program point: a change accepted since the last retirement is owed one. `Turnover` says the
same of `retiring`: every process retired so far is dead, but for the one in that field, and a
candidate for the next retirement is none of them.
-/

namespace LclFastapi.Runtime.Reload

open Lib (Identity Processes Run)

variable {watch : Watch} {s s' : State} {l : Label} {id : Identity} {worker : Record}

/-! ## Pending changes -/

/-- Whether a retirement is owed after a step. -/
def Owes (watch : Watch) (owed : Prop) : Label → Prop
  | .batch changes => owed ∨ Accepted watch changes
  | .issue .. => False
  | _ => owed

/-- What `pending` says at a program point. -/
def Expected (watch : Watch) (owed : Prop) (s : State) : Prop :=
  match s.pc with
  | .failed => True
  | .ready changes | .filtering changes => s.pending = true ∨ Accepted watch changes ↔ owed
  | .logging _ => ¬ owed
  | .deciding _ | .arming _ | .writing _ | .looking _ | .signalling .. => s.pending = true ∧ owed
  | _ => s.pending = true ↔ owed

theorem expected_step {owed : Prop} (h : Step watch s l s') (he : Expected watch owed s) :
    Expected watch (Owes watch owed l) s' := by
  unfold Expected at he
  cases h
  case os | publish | mark => exact he
  case batch changes hpc =>
    rw [hpc] at he
    unfold Expected
    cases hs : s.started <;> exact or_congr_left he
  case filter changes accepted hpc hany =>
    rw [hpc] at he
    show (s.pending || accepted) = true ↔ owed
    rw [Bool.or_eq_true, anyAccepted_iff hany]
    exact he
  case due worker rest hpc hpending =>
    rw [hpc] at he
    exact ⟨hpending, he.mp hpending⟩
  case armed worker hpc =>
    rw [hpc] at he
    unfold Expected
    cases hu : watch.uvicorn <;> exact he
  case write | signal => exact not_false
  case logged worker hpc =>
    rw [hpc] at he
    exact iff_of_false (by simp) he
  case shutdownSeen | reused | vanished =>
    rw [‹s.pc = _›] at he
    exact iff_of_true he.1 he.2
  case raise hpc =>
    show s.pending = true ↔ owed
    rcases hpc with h | h | h | ⟨_, h⟩ | ⟨_, h⟩ | ⟨_, h⟩ | ⟨_, h⟩ | ⟨_, h⟩ | ⟨_, _, h⟩ <;>
      rw [h] at he <;> first | exact he | exact iff_of_true he.1 he.2
  case fail => exact trivial
  all_goals
    rw [‹s.pc = _›] at he
    exact he

/-! ## Retired processes -/

/-- The workers a tick may still retire. -/
def PC.candidates : PC → List Record
  | .scanning scan => scan.result
  | .deciding worker | .arming worker | .writing worker | .looking worker
  | .signalling _ worker => [worker]
  | _ => []

/-- The process whose retirement is going on. -/
def Outstanding (s : State) (id : Identity) : Prop :=
  match s.pc with
  | .idle | .starting | .watching | .ready _ | .filtering _ | .checking =>
    s.retiring.bind recordIdentity? = some id
  | .logging worker => recordIdentity? worker = some id
  | .failed => True
  | _ => False

/-- What `retiring` says when the processes retired so far are those of `issued`. -/
structure Turnover (issued : Identity → Prop) (s : State) : Prop where
  past : ∀ id, issued id → id ∈ s.os.seen ∧ (s.os.live id = false ∨ Outstanding s id)
  fresh : ∀ worker ∈ s.pc.candidates,
    ∃ id, recordIdentity? worker = some id ∧ id ∈ s.os.seen ∧ ¬ issued id
  handle : ∀ process worker, s.pc = .signalling process worker →
    recordIdentity? worker = some process

variable {issued : Identity → Prop}

/-- A tick past its test of `retiring` has seen every retired process dead. -/
theorem Turnover.dead (ht : Turnover issued s) (hpc : ∀ id, ¬ Outstanding s id)
    (hid : issued id) : s.os.live id = false :=
  (ht.past id hid).2.resolve_right (hpc id)

/-- A step of the tick that keeps the processes and retires none. -/
theorem Turnover.move {m : State} (ht : Turnover issued s) (hos : m.os = s.os)
    (hout : ∀ id, Outstanding s id → s.os.live id = false ∨ Outstanding m id)
    (hcand : ∀ worker ∈ m.pc.candidates, worker ∈ s.pc.candidates)
    (hhandle : ∀ process worker, m.pc = .signalling process worker →
      recordIdentity? worker = some process) : Turnover issued m where
  past id hid := by
    obtain ⟨hseen, h⟩ := ht.past id hid
    rw [hos]
    exact ⟨hseen, h.elim .inl (hout id)⟩
  fresh worker hw := by
    rw [hos]
    exact ht.fresh worker (hcand worker hw)
  handle := hhandle

/-- A retirement is issued. -/
theorem Turnover.issue {m : State} (ht : Turnover issued s) (hos : m.os = s.os)
    (hworker : worker ∈ s.pc.candidates) (hid : recordIdentity? worker = some id)
    (hpc : ∀ id, ¬ Outstanding s id) (hm : m.pc = .logging worker) :
    Turnover (fun v => issued v ∨ v = id) m where
  past v hv := by
    rw [hos]
    rcases hv with hv | rfl
    · exact ⟨(ht.past v hv).1, .inl (ht.dead hpc hv)⟩
    · obtain ⟨u, hu, hseen, -⟩ := ht.fresh worker hworker
      rw [hid] at hu
      refine ⟨Option.some.inj hu ▸ hseen, .inr ?_⟩
      unfold Outstanding
      rw [hm]
      exact hid
  fresh := by
    rw [hm]
    exact fun _ h => absurd h List.not_mem_nil
  handle := by
    rw [hm]
    exact fun _ _ h => by simp at h

theorem turnover_step (h : Step watch s l s') (ht : Turnover issued s) :
    Turnover (fun id => issued id ∨ ∃ worker, l = .issue worker id) s' := by
  have quiet {m : State} (hl : ∀ worker id, l ≠ .issue worker id) (hm : Turnover issued m) :
      Turnover (fun id => issued id ∨ ∃ worker, l = .issue worker id) m := by
    have he : (fun id => issued id ∨ ∃ worker, l = .issue worker id) = issued := by
      funext id
      simp [hl]
    rw [he]
    exact hm
  have out (hpc : ∀ id, ¬ Outstanding s id) {m : State} :
      ∀ id, Outstanding s id → s.os.live id = false ∨ Outstanding m id :=
    fun id h => absurd h (hpc id)
  cases h
  case write worker target hpc htarget =>
    have hm := ht.issue (m := { s with reload := .object worker, pc := .logging worker }) rfl
      (by rw [hpc]; exact List.mem_singleton_self worker) htarget
      (by simp [Outstanding, hpc]) rfl
    simpa [eq_comm] using hm
  case signal process worker p hpc htable hcreated =>
    have hm := ht.issue (m := { s with pc := .logging worker }) rfl
      (by rw [hpc]; exact List.mem_singleton_self worker) (ht.handle process worker hpc)
      (by simp [Outstanding, hpc]) rfl
    simpa [eq_comm] using hm
  case os q hq =>
    refine quiet (by simp) ⟨fun id hid => ?_, fun worker hw => ?_, ht.handle⟩
    · obtain ⟨hseen, hd⟩ := ht.past id hid
      exact ⟨hq.seen_mono hseen, hd.imp_left (hq.dead_stays hseen)⟩
    · obtain ⟨id, hid, hseen, hnew⟩ := ht.fresh worker hw
      exact ⟨id, hid, hq.seen_mono hseen, hnew⟩
  case publish | mark => exact quiet (by simp) ⟨ht.past, ht.fresh, ht.handle⟩
  case gone hpc hgone =>
    refine quiet (by simp) (ht.move rfl (fun id hid => .inl ?_) (by simp [PC.candidates]) (by simp))
    rw [Outstanding, hpc] at hid
    obtain ⟨worker, hw, hrec⟩ := Option.bind_eq_some_iff.mp hid
    have := hgone worker hw
    rwa [isLive, hrec] at this
  case scan scan scan' hpc hscan =>
    have hpc' : ∀ id, ¬ Outstanding s id := by simp [Outstanding, hpc]
    refine quiet (by simp) ⟨fun id hid => ⟨(ht.past id hid).1, .inl (ht.dead hpc' hid)⟩,
      fun worker hw => ?_, by simp⟩
    rcases hscan.result_cases hw with hold | ⟨-, hlive⟩
    · exact ht.fresh worker (by rw [hpc]; exact hold)
    · obtain ⟨id, hid, hl⟩ := live_of_isLive hlive
      refine ⟨id, hid, Processes.seen_of_live hl, fun hissued => ?_⟩
      have hdead := ht.dead hpc' hissued
      rw [hl] at hdead
      exact absurd hdead (by simp)
  case lookup worker id p hpc hid htable hcreated =>
    refine quiet (by simp)
      (ht.move rfl (out (by simp [Outstanding, hpc])) (by simp [PC.candidates, hpc]) ?_)
    intro process w hsig
    obtain ⟨rfl, rfl⟩ : (⟨id.pid, p.created⟩ : Identity) = process ∧ worker = w := by
      simpa using hsig
    rw [hcreated]
    exact hid
  case batch changes hpc =>
    refine quiet (by simp) (ht.move rfl (fun id hid => .inr ?_) ?_ ?_)
    · rw [Outstanding, hpc] at hid
      unfold Outstanding
      cases hs : s.started <;> exact hid
    · cases hs : s.started <;> simp [PC.candidates]
    · cases hs : s.started <;> simp
  case armed worker hpc =>
    refine quiet (by simp) (ht.move rfl (out (by simp [Outstanding, hpc])) ?_ ?_)
    · rw [hpc]
      cases hu : watch.uvicorn <;> simp [PC.candidates]
    · cases hu : watch.uvicorn <;> simp
  case due worker rest hpc hpending =>
    refine quiet (by simp) (ht.move rfl (out (by simp [Outstanding, hpc])) ?_ (by simp))
    rw [hpc]
    simp [PC.candidates, LiveWorkers.result]
  case logged worker hpc =>
    refine quiet (by simp) (ht.move rfl (fun id hid => .inr ?_) (by simp [PC.candidates]) (by simp))
    rw [Outstanding, hpc] at hid
    exact hid
  case fail hpc =>
    exact quiet (by simp)
      (ht.move rfl (fun _ _ => .inr trivial) (by simp [PC.candidates]) (by simp))
  case raise hpc =>
    refine quiet (by simp) (ht.move rfl (fun id hid => ?_) (by simp [PC.candidates]) (by simp))
    rcases hpc with h | h | h | ⟨_, h⟩ | ⟨_, h⟩ | ⟨_, h⟩ | ⟨_, h⟩ | ⟨_, h⟩ | ⟨_, _, h⟩ <;>
      rw [Outstanding, h] at hid <;> first | exact .inr hid | exact hid.elim
  case decide worker hpc hshut =>
    exact quiet (by simp) (ht.move rfl (out (by simp [Outstanding, hpc]))
      (by simp [PC.candidates, hpc]) (by simp))
  case tick | shutdown | start | ready | filter | waiting =>
    refine quiet (by simp) (ht.move rfl (fun id hid => .inr ?_) (by simp [PC.candidates]) (by simp))
    rw [Outstanding, ‹s.pc = _›] at hid
    exact hid
  all_goals
    exact quiet (by simp) (ht.move rfl (out (by simp [Outstanding, ‹s.pc = _›]))
      (by simp [PC.candidates, LiveWorkers.result]) (by simp))

/-- A candidate was found live in this tick. -/
theorem candidate_step (h : Step watch s l s') (hw : worker ∈ s'.pc.candidates) :
    (worker ∈ s.pc.candidates ∧ l ≠ .tick) ∨
      (OfService watch.service_id worker ∧ isLive s.os worker = true) := by
  cases h
  case os | publish | mark => exact .inl ⟨hw, by simp⟩
  case scan scan scan' hpc hscan =>
    rw [hpc]
    exact (hscan.result_cases hw).imp_left fun h => ⟨h, by simp⟩
  case batch => exact absurd hw (by cases s.started <;> simp [PC.candidates])
  case armed worker' hpc =>
    rw [hpc]
    exact .inl ⟨by revert hw; cases watch.uvicorn <;> exact fun h => h, by simp⟩
  case due worker' rest hpc hpending =>
    rw [hpc]
    exact .inl ⟨List.mem_singleton.mp hw ▸ List.mem_cons_self, by simp⟩
  case decide hpc _ | lookup hpc _ _ _ =>
    rw [hpc]
    exact .inl ⟨hw, by simp⟩
  all_goals exact absurd hw List.not_mem_nil

/-- The program point of an issued retirement. -/
theorem issue_cases (h : Step watch s (.issue worker id) s') :
    worker ∈ s.pc.candidates ∧ (∀ v, ¬ Outstanding s v) ∧
      (∀ owed, Expected watch owed s → owed) ∧
      ((∀ p w, s.pc = .signalling p w → recordIdentity? w = some p) →
        recordIdentity? worker = some id) := by
  cases h with
  | write _ _ hpc htarget =>
    exact ⟨by rw [hpc]; exact List.mem_singleton_self _, by simp [Outstanding, hpc],
      fun owed he => by rw [Expected, hpc] at he; exact he.2, fun _ => htarget⟩
  | signal _ _ p hpc htable hcreated =>
    exact ⟨by rw [hpc]; exact List.mem_singleton_self _, by simp [Outstanding, hpc],
      fun owed he => by rw [Expected, hpc] at he; exact he.2, fun hh => hh _ _ hpc⟩

/-- The marker is there, and no tick has gone past it. -/
def Stopped (watch : Watch) (s : State) : Prop :=
  ShutdownRequested watch s.shutdown ∧ (s.pc = .idle ∨ s.pc = .starting)

theorem stopped_step (h : Step watch s l s') (hs : Stopped watch s) :
    Stopped watch s' ∧ s'.pending = s.pending ∧ s'.retiring = s.retiring ∧
      (∀ changes, l ≠ .batch changes) ∧ ∀ worker id, l ≠ .issue worker id := by
  obtain ⟨hmark, hpc'⟩ := hs
  cases h
  case tick => exact ⟨⟨hmark, .inr rfl⟩, rfl, rfl, by simp, by simp⟩
  case shutdown => exact ⟨⟨hmark, .inl rfl⟩, rfl, rfl, by simp, by simp⟩
  case start hpc hno => exact absurd hmark hno
  case os | publish => exact ⟨⟨hmark, hpc'⟩, rfl, rfl, by simp, by simp⟩
  case mark content hkeep => exact ⟨⟨hkeep hmark, hpc'⟩, rfl, rfl, by simp, by simp⟩
  case raise => exact ⟨⟨hmark, .inl rfl⟩, rfl, rfl, by simp, by simp⟩
  case fail hpc =>
    rcases hpc' with h | h <;> rcases hpc with ⟨_, he⟩ | ⟨_, he, _⟩ | ⟨_, he⟩ <;> rw [h] at he <;>
      exact absurd he (by simp)
  all_goals
    rw [‹s.pc = _›] at hpc'
    exact absurd hpc' (by simp)

/-! ## Runs -/

section Runs

variable {r : Run (Step watch)} {i j : Nat}

/-- An accepted change has been consumed after the last retirement before step `j`. -/
def Owed (r : Run (Step watch)) (j : Nat) : Prop :=
  ∃ k, k < j ∧ (∃ changes, r.label k = .batch changes ∧ Accepted watch changes) ∧
    ∀ m, k < m → m < j → ∀ worker id, r.label m ≠ .issue worker id

theorem owed_succ : Owed r (j + 1) ↔ Owes watch (Owed r j) (r.label j) := by
  have before (h : Owed r (j + 1)) (hl : ∀ changes, r.label j = .batch changes →
      ¬ Accepted watch changes) : Owed r j := by
    obtain ⟨k, hkj, ⟨changes, hk, ha⟩, hno⟩ := h
    have hne : k ≠ j := fun he => hl changes (he ▸ hk) ha
    exact ⟨k, by omega, ⟨changes, hk, ha⟩, fun m hkm hmj => hno m hkm (by omega)⟩
  have after (h : Owed r j) (hl : ∀ worker id, r.label j ≠ .issue worker id) : Owed r (j + 1) := by
    obtain ⟨k, hkj, hk, hno⟩ := h
    refine ⟨k, by omega, hk, fun m hkm hmj => ?_⟩
    rcases Nat.lt_succ_iff_lt_or_eq.mp hmj with hlt | rfl
    · exact hno m hkm hlt
    · exact hl
  cases hl : r.label j with
  | batch changes =>
    rw [hl] at before after
    refine ⟨fun h => ?_, fun h => h.elim (fun h => after h (by simp)) fun ha => ?_⟩
    · by_cases ha : Accepted watch changes
      · exact .inr ha
      · exact .inl (before h fun c hc => by rw [← Label.batch.inj hc]; exact ha)
    · exact ⟨j, by omega, ⟨changes, hl, ha⟩, fun m hjm hmj => by omega⟩
  | issue worker id =>
    refine iff_of_false (fun ⟨k, hkj, ⟨changes, hk, _⟩, hno⟩ => ?_) not_false
    have hne : k ≠ j := fun he => by
      rw [he, hl] at hk
      exact absurd hk (by simp)
    exact hno j (by omega) (by omega) worker id hl
  | tick | ret | raise | inner | environment =>
    rw [hl] at before after
    exact ⟨fun h => before h (by simp), fun h => after h (by simp)⟩

/-- The processes whose retirement was issued before step `j`. -/
def Issued (r : Run (Step watch)) (j : Nat) (id : Identity) : Prop :=
  ∃ i, i < j ∧ ∃ worker, r.label i = .issue worker id

theorem issued_succ :
    Issued r (j + 1) = fun id => Issued r j id ∨ ∃ worker, r.label j = .issue worker id := by
  funext id
  refine propext ⟨fun ⟨i, hij, hi⟩ => ?_, fun h => ?_⟩
  · rcases Nat.lt_succ_iff_lt_or_eq.mp hij with hlt | rfl
    · exact .inl ⟨i, hlt, hi⟩
    · exact .inr hi
  · rcases h with ⟨i, hij, hi⟩ | hi
    · exact ⟨i, by omega, hi⟩
    · exact ⟨j, by omega, hi⟩

theorem expected_run (h0 : Init (r.state 0)) :
    ∀ j, j ≤ r.length → Expected watch (Owed r j) (r.state j)
  | 0, _ => by
    rw [Expected, h0.pc]
    exact iff_of_false (by simp [h0.pending]) fun ⟨k, hk, _⟩ => by omega
  | j + 1, hj => by
    rw [propext owed_succ]
    exact expected_step (r.step_ok j hj) (expected_run h0 j (Nat.le_of_succ_le hj))

theorem turnover_run (h0 : Init (r.state 0)) :
    ∀ j, j ≤ r.length → Turnover (Issued r j) (r.state j)
  | 0, _ => by
    refine ⟨fun id ⟨k, hk, _⟩ => by omega, ?_, ?_⟩ <;> rw [h0.pc]
    · exact fun _ h => absurd h List.not_mem_nil
    · exact fun _ _ h => by simp at h
  | j + 1, hj => by
    rw [issued_succ]
    exact turnover_step (r.step_ok j hj) (turnover_run h0 j (Nat.le_of_succ_le hj))

/-- A candidate at step `j` belongs to this start, and was live at a step of the same tick. -/
theorem live_of_candidate (h0 : Init (r.state 0)) (hj : j ≤ r.length)
    (hw : worker ∈ (r.state j).pc.candidates) :
    OfService watch.service_id worker ∧ ∃ k, k < j ∧ isLive (r.state k).os worker = true ∧
      ∀ m, k < m → m < j → r.label m ≠ .tick := by
  induction j with
  | zero =>
    rw [h0.pc] at hw
    exact absurd hw List.not_mem_nil
  | succ j ih =>
    rcases candidate_step (r.step_ok j hj) hw with ⟨hold, hl⟩ | ⟨hown, hlive⟩
    · obtain ⟨hown, k, hkj, hk, hno⟩ := ih (Nat.le_of_succ_le hj) hold
      refine ⟨hown, k, by omega, hk, fun m hkm hmj => ?_⟩
      rcases Nat.lt_succ_iff_lt_or_eq.mp hmj with hlt | rfl
      · exact hno m hkm hlt
      · exact hl
    · exact ⟨hown, j, by omega, hlive, fun m hjm hmj => by omega⟩

end Runs

/-- What a run of the watcher guarantees. -/
structure Retirements (r : Run (Step watch)) : Prop where
  /-- Between ticks, a reload is pending exactly when an accepted change was consumed after the
  last retirement. -/
  pending : ∀ j, j ≤ r.length → (r.state j).pc = .idle → ((r.state j).pending = true ↔ Owed r j)
  /-- A retirement follows an accepted change, which no other retirement followed. -/
  caused : ∀ j worker id, j < r.length → r.label j = .issue worker id → Owed r j
  /-- Of two retired processes the earlier one was seen dead before the later one was retired. -/
  turnover : ∀ i j worker worker' id id', i < j → j < r.length → r.label i = .issue worker id →
    r.label j = .issue worker' id' →
    id ≠ id' ∧ ∃ m, i < m ∧ m ≤ j ∧ (r.state m).os.live id = false
  /-- A retirement reaches the exact process of a worker of this start that was live in its tick. -/
  target : ∀ j worker id, j < r.length → r.label j = .issue worker id →
    recordIdentity? worker = some id ∧ OfService watch.service_id worker ∧
      ∃ k, k < j ∧ (r.state k).os.live id = true ∧ ∀ m, k < m → m < j → r.label m ≠ .tick
  /-- From a tick that begins with the marker there, nothing is consumed and nothing is retired. -/
  shutdown : ∀ a, a < r.length → r.label a = .tick →
    ShutdownRequested watch (r.state a).shutdown → ∀ m, a ≤ m → m < r.length →
    (∀ changes, r.label m ≠ .batch changes) ∧ (∀ worker id, r.label m ≠ .issue worker id) ∧
      (r.state m).pending = (r.state a).pending ∧ (r.state m).retiring = (r.state a).retiring

/-- **The retirement state machine of hot reload.** -/
theorem reload_retirements (r : Run (Step watch)) (h0 : Init (r.state 0)) : Retirements r where
  pending j hj hpc := by
    have he := expected_run h0 j hj
    rw [Expected, hpc] at he
    exact he
  caused j worker id hj hl := by
    have h := r.step_ok j hj
    rw [hl] at h
    exact (issue_cases h).2.2.1 _ (expected_run h0 j hj.le)
  turnover i j worker worker' id id' hij hj hi hl := by
    have ht := turnover_run h0 j hj.le
    have h := r.step_ok j hj
    rw [hl] at h
    obtain ⟨hcand, hout, -, hid⟩ := issue_cases h
    have hissued : Issued r j id := ⟨i, hij, worker, hi⟩
    refine ⟨fun he => ?_, j, hij, Nat.le_refl j, ht.dead hout hissued⟩
    obtain ⟨v, hv, -, hnew⟩ := ht.fresh worker' hcand
    rw [hid ht.handle] at hv
    exact hnew (Option.some.inj hv ▸ he ▸ hissued)
  target j worker id hj hl := by
    have ht := turnover_run h0 j hj.le
    have h := r.step_ok j hj
    rw [hl] at h
    obtain ⟨hcand, -, -, hid⟩ := issue_cases h
    have hid := hid ht.handle
    obtain ⟨hown, k, hkj, hlive, hno⟩ := live_of_candidate h0 hj.le hcand
    rw [isLive, hid] at hlive
    exact ⟨hid, hown, k, hkj, hlive, hno⟩
  shutdown a ha hl hmark m ham hm := by
    have hpc : (r.state a).pc = .idle := by
      have h := r.step_ok a ha
      rw [hl] at h
      generalize r.state (a + 1) = s' at h
      cases h with
      | tick hpc => exact hpc
    obtain ⟨hs, hp, hr⟩ := r.stays
      (P := fun s => Stopped watch s ∧ s.pending = (r.state a).pending ∧
        s.retiring = (r.state a).retiring)
      (fun s l s' h ⟨hs, hp, hr⟩ => by
        obtain ⟨hs', hp', hr', -⟩ := stopped_step h hs
        exact ⟨hs', hp'.trans hp, hr'.trans hr⟩) ham hm.le ⟨⟨hmark, .inl hpc⟩, rfl, rfl⟩
    obtain ⟨-, -, -, hb, hi⟩ := stopped_step (r.step_ok m hm) hs
    exact ⟨hb, hi, hp, hr⟩

/-- A watcher of one root, for Gunicorn. -/
def oneRoot : Watch where
  reload_dirs := [["srv"]]
  resolve filename := some ["srv", filename]
  service_id := .str "start"
  uvicorn := false

theorem oneRoot_accepts : anyAccepted oneRoot [(.modified, "app.py")] = some true := by
  decide

theorem not_requested_absent : ¬ ShutdownRequested watch .absent :=
  fun ⟨_, h, _⟩ => absurd h (by simp [readState, Record.get])

/-- The observation of worker 7. -/
def published : Record := processIdentity ⟨7, 0⟩ ++ [("service_id", .str "start")]

/-- A change, and the worker that is retired for it. -/
def changed : Run (Step oneRoot) :=
  let r := Run.start (Step oneRoot)
    { os := .ofList [⟨7, 0⟩], shutdown := .absent, reload := .absent
      workers := fun p => if p = "7.json" then .object published else .absent
      pending := false, started := false, retiring := none, pc := .idle } .environment
  let r := r.snoc (.tick _ rfl)
  let r := r.snoc (.start _ rfl not_requested_absent)
  let r := r.snoc (.batch _ [(.modified, "app.py")] rfl)
  let r := r.snoc (.ready _ [(.modified, "app.py")] rfl)
  let r := r.snoc (.filter _ [(.modified, "app.py")] true rfl oneRoot_accepts)
  let r := r.snoc (.gone _ rfl fun _ (h : none = some _) => absurd h (by simp))
  let r := r.snoc (.list _ ["7.json"] rfl ⟨by simp, fun p => by
    show p ∈ ["7.json"] ↔ (if p = "7.json" then .object published else .absent) ≠ Stored.absent
    by_cases hp : p = "7.json" <;> simp [hp]⟩)
  let r := r.snoc (.scan _ _ _ rfl (.read "7.json" [] []))
  let r := r.snoc (.scan _ _ _ rfl (.keep published [] [] ⟨.str "start", rfl, rfl⟩ rfl))
  let r := r.snoc (.due _ published [] rfl rfl)
  let r := r.snoc (.decide _ published rfl not_requested_absent)
  let r := r.snoc (.armed _ published rfl)
  let r := r.snoc (.lookup _ published ⟨7, 0⟩ ⟨0, false⟩ rfl rfl rfl rfl)
  let r := r.snoc (.signal _ ⟨7, 0⟩ published ⟨0, false⟩ rfl rfl rfl)
  r.snoc (.logged _ published rfl)

theorem reload_retirements_changed :
    changed.label 13 = .issue published ⟨7, 0⟩ ∧ Retirements changed :=
  ⟨rfl, reload_retirements changed ⟨rfl, rfl, rfl⟩⟩

end LclFastapi.Runtime.Reload
