import LclFastapi.Runtime.ShutdownRequests

/-!
# The stop command waits for the very master it verified (`stop`, `send_shutdown`)

`Moves` says once what the steps of the shutdown system do to one `stop` command; each result below
traces its outcome back through it.

* **`stop_sound`**: a command that returns has found the exact process of its record dead, which was
  live when it was verified, and that process never lives again, whatever becomes of its pid; it
  sends at most one request, and only after the verification; it returns only after a 202, and
  raises `TimeoutError` only at or after the deadline, having seen the master live in between.
-/

namespace LclFastapi.Runtime.Shutdown

open Lib (Identity Processes Run)
open Service (Start)

variable {s s' : State} {l : Label} {c : Identity} {record : Record} {d : ℚ}

/-- What a step does to the program point of a command. -/
inductive Moves (s : State) : Stop → Stop → Prop
  | record : Moves s .idle (.read (readState s.files.runtime))
  | running (record : Record) (h : isLive s.service.os record = true) :
      Moves s (.read record) (.verified record)
  | notRunning (record : Record) : Moves s (.read record) (.over_ record .notRunning)
  | token (record : Record) (token : String) :
      Moves s (.verified record) (.sending record token)
  | unreachable (record : Record) (stop : Stop)
      (h : stop = .verified record ∨ ∃ token, stop = .sending record token) :
      Moves s stop (.over_ record .failed)
  | answer (record : Record) (token : String) (status : Nat) :
      Moves s (.sending record token) (.answered record status)
  | refused (record : Record) (status : Nat) :
      Moves s (.answered record status) (.over_ record (.refused status))
  | deadline (record : Record) (graceful : ℚ) (h : gracefulTimeout? record = some graceful) :
      Moves s (.answered record 202) (.waiting record (s.now + graceful))
  | exited (record : Record) (d : ℚ) (h : isLive s.service.os record = false) :
      Moves s (.waiting record d) (.over_ record .stopped)
  | poll (record : Record) (d : ℚ) (h : isLive s.service.os record = true) :
      Moves s (.waiting record d) (.polled record d)
  | timeout (record : Record) (d : ℚ) : Moves s (.polled record d) (.over_ record .timeout)
  | sleep (record : Record) (d : ℚ) : Moves s (.polled record d) (.waiting record d)

/-- The request of the command `c` reaches a worker. -/
def Label.requestOf (c : Identity) : Label → Bool
  | .accept _ _ _ client | .refuse _ client => client == some c
  | _ => false

theorem withStop_cases {v : Identity} {stop : Stop} (h : Moves s (s.stop v) stop) :
    (s.withStop v stop).stop c = s.stop c ∨ Moves s (s.stop c) ((s.withStop v stop).stop c) := by
  by_cases he : c = v
  · subst he
    exact .inr (by simpa [State.withStop] using h)
  · exact .inl (by simp [State.withStop, he])

/-- A response moves the client that sends, and no other. -/
theorem answer_cases {client : Option Identity} {supplied : String} (status : Nat)
    (hc : Sends s supplied client) (c : Identity) :
    (client ≠ some c ∧ (s.answer client status).stop c = s.stop c) ∨
    ∃ record token, s.stop c = .sending record token ∧
      (s.answer client status).stop c = .answered record status := by
  cases client with
  | none => exact .inl ⟨nofun, rfl⟩
  | some v =>
    obtain ⟨-, record, hv⟩ := hc v rfl
    by_cases he : c = v
    · subst he
      refine .inr ⟨record, supplied, hv, ?_⟩
      simp [State.answer, hv, State.withStop]
    · refine .inl ⟨fun h => he (Option.some.inj h).symm, ?_⟩
      simp [State.answer, hv, State.withStop, he]

theorem stop_cases (h : Step s l s') (c : Identity) :
    s'.stop c = s.stop c ∨ Moves s (s.stop c) (s'.stop c) := by
  cases h with
  | accept w n runtime watcher client hl hw hn hc =>
    have hc : Sends (s.withTask n ⟨w, runtime, .scheduled⟩) runtime.control_token client := hc
    rcases answer_cases 202 hc c with ⟨-, h⟩ | ⟨record, token, h, h'⟩
    · exact .inl h
    · have h : s.stop c = .sending record token := h
      exact .inr (by rw [h, h']; exact .answer record token 202)
  | refuse w supplied client hl hw hc =>
    rcases answer_cases 403 hc c with ⟨-, h⟩ | ⟨record, token, h, h'⟩
    · exact .inl h
    · exact .inr (by rw [h, h']; exact .answer record token 403)
  | record v hl hc => exact withStop_cases (by rw [hc]; exact .record)
  | running v record hl hc hlive => exact withStop_cases (by rw [hc]; exact .running record hlive)
  | notRunning v record hl hc => exact withStop_cases (by rw [hc]; exact .notRunning record)
  | token v record token hl hc => exact withStop_cases (by rw [hc]; exact .token record _)
  | unreachable v record hl hc => exact withStop_cases (.unreachable record _ hc)
  | elsewhere v record token status hl hc =>
    exact withStop_cases (by rw [hc]; exact .answer record token status)
  | refused v record status hl hc => exact withStop_cases (by rw [hc]; exact .refused record status)
  | deadline v record graceful hl hc hg =>
    exact withStop_cases (by rw [hc]; exact .deadline record graceful hg)
  | exited v record d hl hc hlive => exact withStop_cases (by rw [hc]; exact .exited record d hlive)
  | poll v record d hl hc hlive => exact withStop_cases (by rw [hc]; exact .poll record d hlive)
  | timeout v record d hl hc => exact withStop_cases (by rw [hc]; exact .timeout record d)
  | sleep v record d hl hc => exact withStop_cases (by rw [hc]; exact .sleep record d)
  | _ => exact .inl rfl

/-! ## One step -/

/-- The record of a command past its verification and before its end. -/
def Stop.verified? : Stop → Option Record
  | .verified record | .sending record _ | .answered record _ | .waiting record _
  | .polled record _ => some record
  | _ => none

theorem verified_step (h : Step s l s') (hv : (s'.stop c).verified? = some record) :
    (s.stop c).verified? = some record ∨ isLive s.service.os record = true := by
  rcases stop_cases h c with he | hm
  · exact .inl (he ▸ hv)
  · generalize s.stop c = before at hm
    generalize s'.stop c = after at hm hv
    cases hm with
    | running _ hlive => exact .inr (Option.some.inj hv ▸ hlive)
    | record | notRunning | unreachable | refused | exited | timeout => exact absurd hv nofun
    | token | answer | deadline | poll | sleep => exact .inl hv

theorem stopped_step (h : Step s l s') (hv : s'.stop c = .over_ record .stopped) :
    s.stop c = .over_ record .stopped ∨
      ((∃ d, s.stop c = .waiting record d) ∧ isLive s.service.os record = false) := by
  rcases stop_cases h c with he | hm
  · exact .inl (he ▸ hv)
  · rw [hv] at hm
    generalize s.stop c = before at hm
    cases hm with
    | exited _ d hlive => exact .inr ⟨⟨d, rfl⟩, hlive⟩

theorem waiting_step (h : Step s l s')
    (hv : s'.stop c = .waiting record d ∨ s'.stop c = .polled record d) :
    (s.stop c = .waiting record d ∨ s.stop c = .polled record d) ∨
      (s.stop c = .answered record 202 ∧
        ∃ graceful, gracefulTimeout? record = some graceful ∧ s.now + graceful = d) := by
  rcases stop_cases h c with he | hm
  · exact .inl (he ▸ hv)
  · generalize s.stop c = before at hm
    rcases hv with hv | hv <;> rw [hv] at hm
    · cases hm with
      | deadline _ graceful hg => exact .inr ⟨rfl, graceful, hg, rfl⟩
      | sleep => exact .inl (.inr rfl)
    · cases hm with
      | poll => exact .inl (.inl rfl)

theorem polled_step (h : Step s l s') (hv : s'.stop c = .polled record d) :
    s.stop c = .polled record d ∨
      (s.stop c = .waiting record d ∧ isLive s.service.os record = true) := by
  rcases stop_cases h c with he | hm
  · exact .inl (he ▸ hv)
  · rw [hv] at hm
    generalize s.stop c = before at hm
    cases hm with
    | poll _ _ hlive => exact .inr ⟨rfl, hlive⟩

/-- The kernel is the one of the service scopes. -/
theorem os_cases (h : Step s l s') :
    s'.service.os = s.service.os ∨ Processes.Step s.service.os s'.service.os := by
  rcases service_cases h with ⟨lab, -, h⟩ | ⟨f, hf, -⟩
  · generalize s'.service = t at h
    cases h with
    | os q hq => exact .inr hq
    | _ => exact .inl rfl
  · exact .inl (by rw [hf])

theorem seen_step {m : Identity} (h : Step s l s') (hm : m ∈ s.service.os.seen) :
    m ∈ s'.service.os.seen := by
  rcases os_cases h with he | hos
  · rwa [he]
  · exact hos.seen_mono hm

theorem gone_step {m : Identity} (h : Step s l s')
    (hm : m ∈ s.service.os.seen ∧ s.live m = false) :
    m ∈ s'.service.os.seen ∧ s'.live m = false := by
  refine ⟨seen_step h hm.1, ?_⟩
  unfold State.live
  rcases os_cases h with he | hos
  · rw [he]
    exact hm.2
  · exact hos.dead_stays hm.1 hm.2

/-- How many requests the command may still send. -/
def Stop.requests : Stop → Nat
  | .idle | .read _ | .verified _ | .sending .. => 1
  | _ => 0

theorem requests_step (h : Step s l s') (c : Identity) :
    (s'.stop c).requests + (if l.requestOf c then 1 else 0) ≤ (s.stop c).requests := by
  have quiet (hl : l.requestOf c = false) :
      (s'.stop c).requests + (if l.requestOf c then 1 else 0) ≤ (s.stop c).requests := by
    rw [hl, if_neg Bool.false_ne_true, Nat.add_zero]
    rcases stop_cases h c with he | hm
    · rw [he]
    · generalize s.stop c = before at hm ⊢
      generalize s'.stop c = after at hm ⊢
      cases hm with
      | unreachable => exact Nat.zero_le _
      | _ => simp [Stop.requests]
  -- a request is sent where the command waits for its response
  have sent {client : Option Identity} {supplied : String} (status : Nat)
      (hc : Sends s supplied client) (hl : l.requestOf c = (client == some c))
      (he : s'.stop c = (s.answer client status).stop c) :
      (s'.stop c).requests + (if l.requestOf c then 1 else 0) ≤ (s.stop c).requests := by
    rcases answer_cases status hc c with ⟨hne, -⟩ | ⟨record, token, hs, ha⟩
    · exact quiet (by simpa [hl] using hne)
    · rw [he, ha, hs]
      simp only [Stop.requests]
      split <;> omega
  cases h with
  | accept w n runtime watcher client hl hw hn hc =>
    exact sent 202 hc rfl (by rw [withTask_answer_stop])
  | refuse w supplied client hl hw hc => exact sent 403 hc rfl rfl
  | _ => exact quiet rfl

/-! ## Runs -/

section Runs

variable {r : Run Step} {i j : Nat}

/-- What a `stop` command in the process `c` does over a whole run. -/
structure StopSound (r : Run Step) (c : Identity) : Prop where
  /-- Where it returns, the process it verified is dead for good. -/
  stopped : ∀ i j record, i ≤ j → j ≤ r.length →
    (r.state i).stop c = .over_ record .stopped → ∃ k m, k < i ∧
      recordIdentity? record = some m ∧ (r.state k).live m = true ∧ (r.state j).live m = false
  /-- It has been answered 202 before. -/
  accepted : ∀ i record, i ≤ r.length → (r.state i).stop c = .over_ record .stopped →
    ∃ k, k < i ∧ (r.state k).stop c = .answered record 202
  /-- `TimeoutError` comes at or after the deadline, and the master has been live since. -/
  timeout : ∀ i, i < r.length → r.label i = .timeout c → ∃ k m record graceful, k < m ∧ m < i ∧
    (r.state k).stop c = .answered record 202 ∧ gracefulTimeout? record = some graceful ∧
    (r.state k).now + graceful ≤ (r.state i).now ∧
    isLive (r.state m).service.os record = true
  /-- A request goes out under a record whose master was verified live. -/
  requested : ∀ i, i < r.length → (r.label i).requestOf c = true → ∃ k record token, k < i ∧
    (r.state i).stop c = .sending record token ∧ isLive (r.state k).service.os record = true
  /-- At most one request goes out. -/
  once : r.count (Label.requestOf c) 0 r.length ≤ 1

theorem verified_cause (h0 : Init (r.state 0)) (hi : i ≤ r.length)
    (hv : ((r.state i).stop c).verified? = some record) :
    ∃ k, k < i ∧ isLive (r.state k).service.os record = true := by
  refine r.caused (P := fun s => (s.stop c).verified? = some record)
    (E := fun s _ => isLive s.service.os record = true) (fun _ _ _ h hv => verified_step h hv)
    ?_ hi hv
  rw [h0.stop c]
  exact nofun

theorem stopped_cause (h0 : Init (r.state 0)) (hi : i ≤ r.length)
    (hv : (r.state i).stop c = .over_ record .stopped) :
    ∃ k, k < i ∧ (∃ d, (r.state k).stop c = .waiting record d) ∧
      isLive (r.state k).service.os record = false := by
  refine r.caused (P := fun s => s.stop c = .over_ record .stopped)
    (E := fun s _ => (∃ d, s.stop c = .waiting record d) ∧ isLive s.service.os record = false)
    (fun _ _ _ h hv => stopped_step h hv) ?_ hi hv
  rw [h0.stop c]
  exact nofun

theorem waiting_cause (h0 : Init (r.state 0)) (hi : i ≤ r.length)
    (hv : (r.state i).stop c = .waiting record d ∨ (r.state i).stop c = .polled record d) :
    ∃ k, k < i ∧ (r.state k).stop c = .answered record 202 ∧
      ∃ graceful, gracefulTimeout? record = some graceful ∧ (r.state k).now + graceful = d := by
  refine r.caused (P := fun s => s.stop c = .waiting record d ∨ s.stop c = .polled record d)
    (E := fun s _ => s.stop c = .answered record 202 ∧
      ∃ graceful, gracefulTimeout? record = some graceful ∧ s.now + graceful = d)
    (fun _ _ _ h hv => waiting_step h hv) ?_ hi hv
  rw [h0.stop c]
  rintro (h | h) <;> exact absurd h nofun

theorem polled_cause (h0 : Init (r.state 0)) (hi : i ≤ r.length)
    (hv : (r.state i).stop c = .polled record d) :
    ∃ k, k < i ∧ (r.state k).stop c = .waiting record d ∧
      isLive (r.state k).service.os record = true := by
  refine r.caused (P := fun s => s.stop c = .polled record d)
    (E := fun s _ => s.stop c = .waiting record d ∧ isLive s.service.os record = true)
    (fun _ _ _ h hv => polled_step h hv) ?_ hi hv
  rw [h0.stop c]
  exact nofun

theorem dead_of_isLive {os : Processes} {m : Identity} (hm : recordIdentity? record = some m)
    (h : isLive os record = false) : os.live m = false := by
  unfold isLive at h
  rw [hm] at h
  exact h

/-- **A stop command waits for the very master it verified.** -/
theorem stop_sound (r : Run Step) (h0 : Init (r.state 0)) (c : Identity) : StopSound r c where
  stopped i j record hij hj hv := by
    obtain ⟨m, hm, ⟨d, hw⟩, hdead⟩ := stopped_cause h0 (hij.trans hj) hv
    have hml : m ≤ r.length := hm.le.trans (hij.trans hj)
    obtain ⟨k, hk, hlive⟩ := verified_cause h0 hml (by rw [hw]; rfl)
    obtain ⟨master, hrec, hl⟩ := live_of_isLive hlive
    have hseen : master ∈ (r.state m).service.os.seen :=
      r.stays (P := fun s => master ∈ s.service.os.seen) (fun _ _ _ h hs => seen_step h hs) hk.le
        hml (Processes.seen_of_live hl)
    have hgone := r.stays (P := fun s => master ∈ s.service.os.seen ∧ s.live master = false)
      (fun _ _ _ h hs => gone_step h hs) (hm.le.trans hij) hj
      ⟨hseen, dead_of_isLive hrec hdead⟩
    exact ⟨k, master, hk.trans hm, hrec, hl, hgone.2⟩
  accepted i record hi hv := by
    obtain ⟨m, hm, ⟨d, hw⟩, -⟩ := stopped_cause h0 hi hv
    obtain ⟨k, hk, ha, -⟩ := waiting_cause h0 (hm.le.trans hi) (.inl hw)
    exact ⟨k, hk.trans hm, ha⟩
  timeout i hi hl := by
    have hstep := r.step_ok i hi
    rw [hl] at hstep
    generalize r.state (i + 1) = s' at hstep
    cases hstep with
    | timeout _ record d hlive hc hd =>
      obtain ⟨m, hm, hw, hml⟩ := polled_cause h0 hi.le hc
      obtain ⟨k, hk, ha, graceful, hg, hnow⟩ := waiting_cause h0 (hm.le.trans hi.le) (.inl hw)
      exact ⟨k, m, record, graceful, hk, hm, ha, hg, hnow.trans_le hd, hml⟩
  requested i hi hl := by
    have sending {client : Option Identity} {supplied : String}
        (hc : Sends (r.state i) supplied client) (he : (client == some c) = true) :
        ∃ k record token, k < i ∧ (r.state i).stop c = .sending record token ∧
          isLive (r.state k).service.os record = true := by
      obtain ⟨-, record, hs⟩ := hc c (by simpa using he)
      obtain ⟨k, hk, hlive⟩ := verified_cause h0 hi.le (by rw [hs]; rfl)
      exact ⟨k, record, supplied, hk, hs, hlive⟩
    have hstep := r.step_ok i hi
    generalize r.label i = l at hl hstep
    generalize r.state (i + 1) = s' at hstep
    cases hstep with
    | accept w n runtime watcher client hw hscope hn hc => exact sending hc hl
    | refuse w supplied client hw hscope hc => exact sending hc hl
    | _ => exact absurd hl Bool.false_ne_true
  once := by
    have h := r.count_rank (p := Label.requestOf c) (f := fun s => (s.stop c).requests)
      (Nat.zero_le _) le_rfl fun k _ hk => requests_step (r.step_ok k hk) c
    have hone : ((r.state 0).stop c).requests = 1 := by rw [h0.stop c]; rfl
    omega

end Runs

/-- The command of `stopping` waits; the master exits, and the command returns. -/
def stopReturns : Run Step :=
  let r := stopping
  let r := r.snoc (.deadline _ ⟨9, 0⟩ served.identity 30 rfl rfl rfl)
  let r := r.snoc (.service _ _ _ (.os _ _ (.exit _ ⟨1, 0⟩ rfl)) nofun)
  r.snoc (.exited _ ⟨9, 0⟩ served.identity (0 + 30) rfl rfl rfl)

theorem stop_sound_stopReturns :
    (stopReturns.state 25).stop ⟨9, 0⟩ = .over_ served.identity .stopped ∧
      ∃ k, k < 25 ∧ (stopReturns.state k).stop ⟨9, 0⟩ = .answered served.identity 202 := by
  have hover : (stopReturns.state 25).stop ⟨9, 0⟩ = .over_ served.identity .stopped := rfl
  have hinit : Init (stopReturns.state 0) :=
    ⟨⟨rfl, fun _ => rfl, fun _ => rfl, nofun, nofun, nofun⟩, fun _ => rfl, fun _ => rfl,
      fun _ => rfl⟩
  have hlen : 25 ≤ stopReturns.length := le_rfl
  exact ⟨hover, (stop_sound stopReturns hinit ⟨9, 0⟩).accepted 25 served.identity hlen hover⟩

end LclFastapi.Runtime.Shutdown
