import LclFastapi.Lib.Queue
import LclFastapi.Background.Bridge

/-!
# Submitted operations settle before their attempt ends

For every interleaving of the worker thread, the service loop and what its operations await.

* **`barrier_of_cooperative`**: `close_attempt` returns, the Frame scope is exited and the next
  attempt starts only when every submitted operation is done and the task set is empty; and `drain`
  cancels no task twice, and none that is being cancelled, in a run where it never meets finished
  tasks only (`Cooperative`).
* **`spinning_forever`**: a pass over finished tasks only never ends. `drain` keeps the loop to
  itself, so that the `completed` callbacks of these tasks are never served.
* `cancelled_again`: a run with such a pass, in which `drain` cancels a task twice.

The proof follows the handles through the queue (`NoneBehind`): no task is created behind the first
step of `drain`, and no `completed` callback is left when `drain` resumes after its `gather`.
-/

namespace LclFastapi.Background.Bridge

open LclFastapi.Lib

variable {s t : State} {a : Label} {i n : Nat}

/-! ## What a step files -/

/-- What a step from `s` to `t` may file at the end of the queue. -/
def Files (s t : State) : Handle → Prop
  | .start _ | .startDrain => ∃ n, s.pc = .entry n
  | .step i => (t.op i).phase = .ready ∨ .start i ∈ s.queue
  | .completed i | .gatherDone i => (t.op i).phase = .finished ∧ (s.op i).phase ≠ .finished
  | .stepDrain => t.drain ≠ s.drain
  | .cancelTask _ => True

/-- **A step serves at most the head of the queue, and files the rest at its end.** -/
theorem queue_step (h : Step s a t) :
    ∃ rest filed, t.queue = rest ++ filed ∧ (rest = s.queue ∨ ∃ x, s.queue = x :: rest) ∧
      ∀ y ∈ filed, Files s t y := by
  cases h with
  | submit n i hpc hi => exact ⟨s.queue, [.start i], rfl, .inl rfl, by simpa [Files] using ⟨n, hpc⟩⟩
  | cancelFuture i hi hnot =>
    by_cases hs : (s.op i).phase = .submitted
    · exact ⟨s.queue, [], by simp [hs], .inl rfl, by simp⟩
    · exact ⟨s.queue, [.cancelTask i], by simp [hs], .inl rfl, by simp [Files]⟩
  | start i rest hq hfree hi =>
    refine ⟨rest, _, rfl, .inr ⟨_, hq⟩, fun y hy => ?_⟩
    cases hc : (s.op i).cancelled
    · obtain rfl : y = .step i := by simpa [hc] using hy
      exact .inr (by simp [hq])
    · obtain rfl | rfl : y = .step i ∨ y = .cancelTask i := by simpa [hc] using hy
      · exact .inr (by simp [hq])
      · trivial
  | unstarted i rest hq | suspend i c rest hq | cancelTask i rest hq | completed i rest hq
  | stepDrain rest hq => exact ⟨rest, [], by simp, .inr ⟨_, hq⟩, by simp⟩
  | finish i rest hq hfree hi =>
    refine ⟨rest, s.callbacks i, rfl, .inr ⟨_, hq⟩, fun y hy => ?_⟩
    have hy' : y = .completed i ∨ y = .gatherDone i := by
      simp only [State.callbacks] at hy
      split at hy
      · simpa using hy
      · exact .inl (by simpa using hy)
    have hne : (s.op i).phase ≠ .finished := by
      rcases hi with hi | ⟨hi, -⟩ <;> rw [hi] <;> simp
    rcases hy' with rfl | rfl <;> exact ⟨by simp, hne⟩
  | wake i hi => exact ⟨s.queue, [.step i], rfl, .inl rfl, by simp [Files]⟩
  | gatherDone i rest hq hfree =>
    rcases s.report_cases i rest with ⟨children, hd, ⟨-, hr⟩ | hr⟩ | ⟨-, hr⟩ <;> rw [hr]
    · exact ⟨rest, [.stepDrain], rfl, .inr ⟨_, hq⟩, by simp [Files, hd]⟩
    · exact ⟨rest, [], by simp, .inr ⟨_, hq⟩, by simp⟩
    · exact ⟨rest, [], by simp, .inr ⟨_, hq⟩, by simp⟩
  | startDrain rest hq hdrain =>
    exact ⟨rest, [.stepDrain], rfl, .inr ⟨_, hq⟩, by simp [Files, hdrain]⟩
  | close n hpc => exact ⟨s.queue, [.startDrain], rfl, .inl rfl, by simpa [Files] using ⟨n, hpc⟩⟩
  | pass | drained | closed | exit | attempt => exact ⟨s.queue, [], by simp, .inl rfl, by simp⟩

/-- What nothing the step files has, still does not stand behind `b`. -/
theorem noneBehind_step {P Q : Handle → Prop} {b : Handle} (h : Step s a t)
    (hn : NoneBehind P b s.queue) (hle : ∀ y ∈ s.queue, Q y → P y)
    (hf : ∀ y, Files s t y → ¬ Q y) : NoneBehind Q b t.queue := by
  obtain ⟨rest, filed, hq, hrest, hfiled⟩ := queue_step h
  have hmono := hn.mono hle
  rw [hq]
  rcases hrest with rfl | ⟨x, hx⟩
  · exact hmono.append fun y hy => hf y (hfiled y hy)
  · rw [hx] at hmono
    exact hmono.tail.append fun y hy => hf y (hfiled y hy)

/-- A handle in the queue was there before the step, or is filed by it. -/
theorem mem_queue_step {y : Handle} (h : Step s a t) (hy : y ∈ t.queue) :
    y ∈ s.queue ∨ Files s t y := by
  obtain ⟨rest, filed, hq, hrest, hfiled⟩ := queue_step h
  rw [hq, List.mem_append] at hy
  rcases hy with hy | hy
  · rcases hrest with rfl | ⟨x, hx⟩
    · exact .inl hy
    · exact .inl (by simp [hx, hy])
  · exact .inr (hfiled y hy)

/-! ## What a step does to `drain` -/

/-- **The turns of a drain.** -/
inductive Turn (s t : State) : Prop
  | keep (ht : t.drain = s.drain)
  | request (ht : t.drain = .requested) (n : Nat) (hpc : s.pc = .entry n)
      (hq : t.queue = s.queue ++ [.startDrain])
  | create (ht : t.drain = .created) (rest : List Handle) (hd : s.drain = .requested)
      (hq : s.queue = .startDrain :: rest) (hfile : t.queue = rest ++ [.stepDrain])
  | test (ht : t.drain = .testing) (rest : List Handle)
      (hd : s.drain = .created ∨ s.drain = .woken) (hq : s.queue = .stepDrain :: rest)
      (hop : t.op = s.op) (htasks : t.tasks = s.tasks)
  | gather (ht : t.drain = .waiting s.unfinished) (hd : s.drain = .testing)
  | report {children : Finset Nat} {i : Nat} (ht : t.drain = .waiting (children.erase i))
      (hd : s.drain = .waiting children) (hq : .gatherDone i ∈ s.queue)
  | wake (ht : t.drain = .woken) (i : Nat) (rest : List Handle) (children : Finset Nat)
      (hd : s.drain = .waiting children) (hq : s.queue = .gatherDone i :: rest)
      (he : children.erase i = ∅) (hfile : t.queue = rest ++ [.stepDrain]) (hop : t.op = s.op)
  | finish (ht : t.drain = .finished) (hd : s.drain = .testing) (hop : t.op = s.op)
      (htasks : t.tasks = s.tasks) (hempty : s.tasks = ∅)
  | reset (ht : t.drain = .idle) (n : Nat) (hpc : s.pc = .idle n)

theorem drain_step (h : Step s a t) : Turn s t := by
  cases h with
  | close n hpc => exact .request rfl n hpc rfl
  | startDrain rest hq hdrain => exact .create rfl rest hdrain hq rfl
  | stepDrain rest hq hdrain => exact .test rfl rest hdrain hq rfl rfl
  | pass hdrain htasks =>
    by_cases he : s.unfinished = ∅
    · exact .keep ((if_pos he).trans hdrain.symm)
    · exact .gather (if_neg he) hdrain
  | gatherDone i rest hq hfree =>
    rcases s.report_cases i rest with ⟨children, hw, ⟨he, hr⟩ | hr⟩ | ⟨-, hr⟩
    · rw [hr]
      exact .wake rfl i rest children hw hq he rfl rfl
    · rw [hr]
      exact .report rfl hw (by simp [hq])
    · rw [hr]
      exact .keep rfl
  | drained hdrain htasks => exact .finish rfl hdrain rfl rfl htasks
  | attempt n hpc => exact .reset rfl n hpc
  | _ => all_goals exact .keep rfl

/-! ## Operations, their handles and the task set -/

/-- The handles and the task set follow the phases of the operations. -/
structure Filed (s : State) : Prop where
  submitted : ∀ i, (s.op i).phase = .submitted → .start i ∈ s.queue
  created : ∀ i, (s.op i).phase = .created → .step i ∈ s.queue
  running : ∀ i, (s.op i).phase = .suspended ∨ (s.op i).phase = .ready → i ∈ s.tasks
  finished : ∀ i ∈ s.tasks, (s.op i).phase = .finished → .completed i ∈ s.queue
  done : ∀ i, .completed i ∈ s.queue ∨ .gatherDone i ∈ s.queue → (s.op i).phase = .finished
  begun : ∀ i ∈ s.tasks,
    (s.op i).phase = .suspended ∨ (s.op i).phase = .ready ∨ (s.op i).phase = .finished

theorem Filed.init (h : Init s) : Filed s := by
  constructor <;> simp [h.op, h.tasks, h.queue]

theorem Filed.submitted_step (h : Filed s) (hst : Step s a t) :
    ∀ i, (t.op i).phase = .submitted → .start i ∈ t.queue := by
  have hsub := h.submitted
  intro j hj
  cases hst with
  | gatherDone i rest hq hfree =>
    exact s.mem_report_queue i rest (by grind)
  | _ => all_goals grind

theorem Filed.created_step (h : Filed s) (hst : Step s a t) :
    ∀ i, (t.op i).phase = .created → .step i ∈ t.queue := by
  have hcre := h.created
  intro j hj
  cases hst with
  | gatherDone i rest hq hfree =>
    exact s.mem_report_queue i rest (by grind)
  | _ => all_goals grind

/-- A task leaves the set only when it has finished. -/
theorem Filed.running_step (h : Filed s) (hst : Step s a t) :
    ∀ i, (t.op i).phase = .suspended ∨ (t.op i).phase = .ready → i ∈ t.tasks := by
  have hrun := h.running
  intro j hj
  cases hst with
  | completed i rest hq hfree =>
    have hfin := h.done i (.inl (by simp [hq]))
    refine Finset.mem_erase.mpr ⟨?_, hrun j hj⟩
    rintro rfl
    rw [hfin] at hj
    simp at hj
  | suspend i c rest hq hfree hi | finish i rest hq hfree hi => grind [State.invoke]
  | _ => all_goals grind

theorem Filed.finished_step (h : Filed s) (hst : Step s a t) :
    ∀ i ∈ t.tasks, (t.op i).phase = .finished → .completed i ∈ t.queue := by
  have hfin := h.finished
  have hbeg := h.begun
  intro j hj hp
  cases hst with
  | gatherDone i rest hq hfree =>
    exact s.mem_report_queue i rest (by grind)
  | suspend i c rest hq hfree hi | finish i rest hq hfree hi =>
    grind [State.invoke, State.callbacks]
  | _ => all_goals grind

/-- A finished operation stays finished. -/
theorem phase_finished_step (hst : Step s a t) (hp : (s.op i).phase = .finished) :
    (t.op i).phase = .finished := by
  cases hst <;> grind

/-- Only its first step adds a task to the set. -/
theorem tasks_step (hst : Step s a t) (hi : i ∈ t.tasks) :
    i ∈ s.tasks ∨ (s.op i).phase = .created := by
  cases hst with
  | suspend j c rest hq hfree hj | finish j rest hq hfree hj => grind [State.invoke]
  | _ => all_goals grind

theorem phase_submitted (hst : Step s a t) (hi : (t.op i).phase = .submitted) :
    (s.op i).phase = .submitted ∨ ∃ n, s.pc = .entry n := by
  cases hst <;> grind

theorem phase_created (hst : Step s a t) (hi : (t.op i).phase = .created) :
    (s.op i).phase = .created ∨ (s.op i).phase = .submitted := by
  cases hst <;> grind

theorem phase_finished (hst : Step s a t) (hi : (t.op i).phase = .finished) :
    (s.op i).phase = .finished ∨ (s.op i).phase = .created ∨ (s.op i).phase = .ready := by
  cases hst <;> grind

theorem Filed.done_step (h : Filed s) (hst : Step s a t) :
    ∀ i, .completed i ∈ t.queue ∨ .gatherDone i ∈ t.queue → (t.op i).phase = .finished := by
  rintro i (hi | hi)
  · rcases mem_queue_step hst hi with hs | hs
    · exact phase_finished_step hst (h.done i (.inl hs))
    · exact hs.1
  · rcases mem_queue_step hst hi with hs | hs
    · exact phase_finished_step hst (h.done i (.inr hs))
    · exact hs.1

theorem Filed.begun_step (h : Filed s) (hst : Step s a t) :
    ∀ i ∈ t.tasks,
      (t.op i).phase = .suspended ∨ (t.op i).phase = .ready ∨ (t.op i).phase = .finished := by
  have hbeg := h.begun
  intro j hj
  cases hst with
  | suspend i c rest hq hfree hi | finish i rest hq hfree hi => grind [State.invoke]
  | _ => all_goals grind

theorem Filed.step (h : Filed s) (hst : Step s a t) : Filed t :=
  ⟨h.submitted_step hst, h.created_step hst, h.running_step hst, h.finished_step hst,
    h.done_step hst, h.begun_step hst⟩

/-! ## The stages of a drain -/

/-- No operation of the bridge is under way. -/
def State.Still (s : State) : Prop :=
  ∀ i, (s.op i).phase = .fresh ∨ (s.op i).phase = .finished

/-- Every submitted operation is done, and its task released. -/
structure State.Settled (s : State) : Prop where
  tasks : s.tasks = ∅
  still : s.Still

/-- Every submitted operation has had the first step of its task. -/
def State.Begun (s : State) : Prop :=
  ∀ i, (s.op i).phase ≠ .submitted ∧ (s.op i).phase ≠ .created

/-- Nothing is under way once every task in the set has finished. -/
theorem Filed.still (h : Filed s) (hb : s.Begun)
    (hfin : ∀ i ∈ s.tasks, (s.op i).phase = .finished) : s.Still := by
  intro i
  have hrun := h.running i
  cases hp : (s.op i).phase with
  | fresh => exact .inl rfl
  | finished => exact .inr rfl
  | submitted => exact absurd hp (hb i).1
  | created => exact absurd hp (hb i).2
  | suspended => exact .inr (hp.symm.trans (hfin i (hrun (.inl hp))))
  | ready => exact .inr (hp.symm.trans (hfin i (hrun (.inr hp))))

/-- A handle that creates a task. -/
def Handle.Creates (y : Handle) : Prop :=
  y = .startDrain ∨ ∃ i, y = .start i

/-- The first step of an operation, or a step of `drain`. -/
def State.First (s : State) (y : Handle) : Prop :=
  y = .stepDrain ∨ ∃ i, y = .step i ∧ (s.op i).phase = .created

/-- The end of an operation, or a step of `drain`. -/
def Handle.Last (y : Handle) : Prop :=
  y = .stepDrain ∨ ∃ i, y = .completed i

/-- What each stage of a drain leaves behind it. -/
structure Stage (s : State) : Prop where
  filed : Filed s
  entry : ∀ n, s.pc = .entry n → s.drain = .idle
  startDrain : .startDrain ∈ s.queue → s.drain = .requested
  stepDrain : .stepDrain ∈ s.queue → s.drain = .created ∨ s.drain = .woken
  requested : s.drain = .requested → NoneBehind Handle.Creates .startDrain s.queue
  created : s.drain = .created →
    (∀ i, .start i ∉ s.queue) ∧ NoneBehind s.First .stepDrain s.queue
  begun : (s.drain = .testing ∨ ∃ children, s.drain = .waiting children) → s.Begun
  waiting : ∀ children, s.drain = .waiting children →
    ∀ i ∈ s.tasks, (s.op i).phase ≠ .finished → i ∈ children
  woken : s.drain = .woken → s.Still ∧ NoneBehind Handle.Last .stepDrain s.queue
  finished : s.drain = .finished → s.Settled
  past : ∀ n, s.pc = .exiting n ∨ s.pc = .idle n →
    s.Settled ∧ (s.drain = .idle ∨ s.drain = .finished)

theorem Stage.init (h : Init s) : Stage s where
  filed := .init h
  entry n hn := h.drain
  startDrain hm := by simp [h.queue] at hm
  stepDrain hm := by simp [h.queue] at hm
  requested hd := by simp [h.drain] at hd
  created hd := by simp [h.drain] at hd
  begun hd := by simp [h.drain] at hd
  waiting children hd := by simp [h.drain] at hd
  woken hd := by simp [h.drain] at hd
  finished hd := by simp [h.drain] at hd
  past n hn := ⟨⟨h.tasks, fun i => .inl (by rw [h.op i])⟩, .inl h.drain⟩

/-! ## One step from stage to stage -/

theorem State.Still.step (h : s.Still) (hst : Step s a t) (hpc : ∀ n, s.pc ≠ .entry n) :
    t.Still := by
  intro j
  have hop := h j
  cases hst with
  | submit n i hp => exact absurd hp (hpc n)
  | start i rest hq hfree hi | wake i hi | unstarted i rest hq hfree hi =>
    have := h i
    simp [hi] at this
  | suspend i c rest hq hfree hi | finish i rest hq hfree hi =>
    have := h i
    rcases hi with hi | ⟨hi, -⟩ <;> simp [hi] at this
  | _ => all_goals grind

/-- A settled bridge stays settled until the next attempt submits. -/
theorem State.Settled.step (h : s.Settled) (hst : Step s a t) (hpc : ∀ n, s.pc ≠ .entry n) :
    t.Settled := by
  refine ⟨?_, h.still.step hst hpc⟩
  have htasks := h.tasks
  cases hst with
  | suspend i c rest hq hfree hi | finish i rest hq hfree hi =>
    have := h.still i
    rcases hi with hi | ⟨hi, -⟩ <;> simp [hi] at this
  | completed i rest => simp [htasks]
  | _ => all_goals simpa using htasks

theorem State.Begun.step (h : s.Begun) (hst : Step s a t) (hpc : ∀ n, s.pc ≠ .entry n) :
    t.Begun := by
  refine fun i => ⟨fun hi => ?_, fun hi => ?_⟩
  · rcases phase_submitted hst hi with hi | ⟨n, hn⟩
    · exact (h i).1 hi
    · exact hpc n hn
  · rcases phase_created hst hi with hi | hi
    · exact (h i).2 hi
    · exact (h i).1 hi

/-- No submission arrives once `drain` has been asked for. -/
theorem Stage.not_entry (h : Stage s) (hd : s.drain ≠ .idle) (n : Nat) : s.pc ≠ .entry n :=
  fun hn => hd (h.entry n hn)

theorem Stage.entry_step (h : Stage s) (hst : Step s a t) :
    ∀ n, t.pc = .entry n → t.drain = .idle := by
  have hent := h.entry
  intro n hn
  cases hst with
  | gatherDone i rest hq hfree =>
    have := hent n (by simpa using hn)
    simp [State.report, this]
  | pass hdrain => exact absurd (hent n hn) (by simp [hdrain])
  | _ => all_goals grind

theorem Stage.startDrain_step (h : Stage s) (hst : Step s a t) :
    .startDrain ∈ t.queue → t.drain = .requested := by
  have hreq := h.startDrain
  intro hm
  cases hst with
  | close n hpc => rfl
  | startDrain rest hq hdrain =>
    have hnone := h.requested hdrain
    rw [hq] at hnone
    exact absurd (.inl rfl) (hnone.head .startDrain (by simpa using hm))
  | gatherDone i rest hq hfree =>
    rcases s.report_cases i rest with ⟨children, hd, ⟨-, hr⟩ | hr⟩ | ⟨-, hr⟩ <;>
      rw [hr] at hm ⊢ <;> grind
  | finish i rest hq hfree hi => grind [State.callbacks]
  | attempt n hpc =>
    have hdrain := hreq hm
    rcases (h.past n (.inr hpc)).2 with hd | hd <;> simp [hd] at hdrain
  | _ => all_goals grind

theorem Stage.stepDrain_step (h : Stage s) (hst : Step s a t) :
    .stepDrain ∈ t.queue → t.drain = .created ∨ t.drain = .woken := by
  have hstep := h.stepDrain
  intro hm
  cases hst with
  | startDrain rest hq hdrain => exact .inl rfl
  | stepDrain rest hq hdrain =>
    rcases hdrain with hdrain | hdrain
    · have hnone := (h.created hdrain).2
      rw [hq] at hnone
      exact absurd (.inl rfl) (hnone.head .stepDrain hm)
    · have hnone := (h.woken hdrain).2
      rw [hq] at hnone
      exact absurd (.inl rfl) (hnone.head .stepDrain hm)
  | gatherDone i rest hq hfree =>
    rcases s.report_cases i rest with ⟨children, hd, ⟨-, hr⟩ | hr⟩ | ⟨-, hr⟩ <;>
      rw [hr] at hm ⊢ <;> grind
  | finish i rest hq hfree hi => grind [State.callbacks]
  | close n hpc =>
    have hdrain := hstep (by simpa using hm)
    simp [h.entry n hpc] at hdrain
  | attempt n hpc =>
    have hdrain := hstep hm
    rcases (h.past n (.inr hpc)).2 with hd | hd <;> simp [hd] at hdrain
  | pass hdrain =>
    have := hstep hm
    simp [hdrain] at this
  | _ => all_goals grind

/-- While `drain` is asked for, nothing that creates a task is filed. -/
theorem Stage.not_creates (h : Stage s) (hd : s.drain ≠ .idle) {y : Handle} (hf : Files s t y) :
    ¬ y.Creates := by
  rintro (rfl | ⟨i, rfl⟩)
  · obtain ⟨n, hn⟩ := hf
    exact h.not_entry hd n hn
  · obtain ⟨n, hn⟩ := hf
    exact h.not_entry hd n hn

/-- All tasks are created before `drain` is. -/
theorem Stage.requested_step (h : Stage s) (hst : Step s a t) :
    t.drain = .requested → NoneBehind Handle.Creates .startDrain t.queue := by
  intro hd
  have hkeep : s.drain = .requested → NoneBehind Handle.Creates .startDrain t.queue := fun hs =>
    noneBehind_step hst (h.requested hs) (fun _ _ hy => hy) fun y hf =>
      h.not_creates (by simp [hs]) hf
  cases drain_step hst with
  | keep ht => exact hkeep (ht ▸ hd)
  | request ht n hpc hq =>
    rw [hq]
    refine noneBehind_concat fun hm => ?_
    have := h.startDrain hm
    simp [h.entry n hpc] at this
  | create ht | test ht | gather ht | report ht | wake ht | finish ht | reset ht =>
    rw [ht] at hd
    cases hd

/-- The first step of every operation comes before the one of `drain`. -/
theorem Stage.created_step (h : Stage s) (hst : Step s a t) :
    t.drain = .created → (∀ i, .start i ∉ t.queue) ∧ NoneBehind t.First .stepDrain t.queue := by
  intro hd
  have hkeep : s.drain = .created →
      (∀ i, .start i ∉ t.queue) ∧ NoneBehind t.First .stepDrain t.queue := by
    intro hs
    obtain ⟨hstart, hfirst⟩ := h.created hs
    have hnot : ∀ i, .start i ∉ t.queue := fun i hi => by
      rcases mem_queue_step hst hi with hi | hf
      · exact hstart i hi
      · exact h.not_creates (by simp [hs]) hf (.inr ⟨i, rfl⟩)
    refine ⟨hnot, noneBehind_step hst hfirst ?_ ?_⟩
    · rintro y - (rfl | ⟨i, rfl, hi⟩)
      · exact .inl rfl
      · rcases phase_created hst hi with hi | hi
        · exact .inr ⟨i, rfl, hi⟩
        · exact absurd (h.filed.submitted i hi) (hstart i)
    · rintro y hf (rfl | ⟨i, rfl, hi⟩)
      · exact hf (hd.trans hs.symm)
      · rcases hf with hf | hf
        · simp [hi] at hf
        · exact hstart i hf
  cases drain_step hst with
  | keep ht => exact hkeep (ht ▸ hd)
  | create ht rest hdrain hq hfile =>
    have hnone := h.requested hdrain
    rw [hq] at hnone
    rw [hfile]
    refine ⟨fun i hi => hnone.head (.start i) (by simpa using hi) (.inr ⟨i, rfl⟩),
      noneBehind_concat fun hm => ?_⟩
    have := h.stepDrain (by simp [hq, hm])
    simp [hdrain] at this
  | request ht | test ht | gather ht | report ht | wake ht | finish ht | reset ht =>
    rw [ht] at hd
    cases hd

/-- When `drain` tests the task set, every submitted operation is in it or done. -/
theorem Stage.begun_step (h : Stage s) (hst : Step s a t) :
    (t.drain = .testing ∨ ∃ children, t.drain = .waiting children) → t.Begun := by
  intro hd
  have hkeep : (s.drain = .testing ∨ ∃ children, s.drain = .waiting children) → t.Begun := by
    intro hs
    refine (h.begun hs).step hst (h.not_entry ?_)
    rcases hs with hs | ⟨children, hs⟩ <;> simp [hs]
  cases drain_step hst with
  | keep ht => exact hkeep (ht ▸ hd)
  | test ht rest hdrain hq hop htasks =>
    rcases hdrain with hdrain | hdrain
    · obtain ⟨hstart, hfirst⟩ := h.created hdrain
      rw [hq] at hfirst
      refine fun i => ⟨fun hi => ?_, fun hi => ?_⟩
      · exact hstart i (h.filed.submitted i (hop ▸ hi))
      · have hmem : .step i ∈ rest := by simpa [hq] using h.filed.created i (hop ▸ hi)
        exact hfirst.head _ hmem (.inr ⟨i, rfl, hop ▸ hi⟩)
    · intro i
      rw [hop]
      rcases (h.woken hdrain).1 i with hi | hi <;> simp [hi]
  | gather ht hdrain => exact hkeep (.inl hdrain)
  | report ht hdrain => exact hkeep (.inr ⟨_, hdrain⟩)
  | request ht | create ht | wake ht | finish ht | reset ht => simp [ht] at hd

/-- The `gather` waits for every task that has not finished. -/
theorem Stage.waiting_step (h : Stage s) (hst : Step s a t) :
    ∀ children, t.drain = .waiting children →
      ∀ i ∈ t.tasks, (t.op i).phase ≠ .finished → i ∈ children := by
  intro children hd j hj hne
  have hunfinished : (s.op j).phase ≠ .finished := fun hf => hne (phase_finished_step hst hf)
  have hmem : s.Begun → j ∈ s.tasks := fun hs =>
    (tasks_step hst hj).resolve_right (hs j).2
  cases drain_step hst with
  | keep ht =>
    rw [ht] at hd
    exact h.waiting children hd j (hmem (h.begun (.inr ⟨children, hd⟩))) hunfinished
  | gather ht hdrain =>
    obtain rfl := Drain.waiting.inj (ht.symm.trans hd)
    exact Finset.mem_filter.mpr ⟨hmem (h.begun (.inl hdrain)), by simpa using hunfinished⟩
  | @report all i ht hdrain hq =>
    obtain rfl := Drain.waiting.inj (ht.symm.trans hd)
    have hchild := h.waiting all hdrain j (hmem (h.begun (.inr ⟨all, hdrain⟩))) hunfinished
    refine Finset.mem_erase.mpr ⟨?_, hchild⟩
    rintro rfl
    exact hunfinished (h.filed.done j (.inr hq))
  | request ht | create ht | test ht | wake ht | finish ht | reset ht => simp [ht] at hd

/-- When the `gather` is done, all that is left of the tasks is their callbacks. -/
theorem Stage.woken_step (h : Stage s) (hst : Step s a t) :
    t.drain = .woken → t.Still ∧ NoneBehind Handle.Last .stepDrain t.queue := by
  intro hd
  have hkeep : s.drain = .woken → t.Still ∧ NoneBehind Handle.Last .stepDrain t.queue := by
    intro hs
    obtain ⟨hstill, hlast⟩ := h.woken hs
    refine ⟨hstill.step hst (h.not_entry (by simp [hs])),
      noneBehind_step hst hlast (fun _ _ hy => hy) ?_⟩
    rintro y hf (rfl | ⟨i, rfl⟩)
    · exact hf (hd.trans hs.symm)
    · have := phase_finished hst hf.1
      rcases hstill i with hi | hi <;> simp [hi] at this
      exact hf.2 hi
  cases drain_step hst with
  | keep ht => exact hkeep (ht ▸ hd)
  | wake ht i rest children hw hq he hfile hop =>
    have hfin : ∀ j ∈ s.tasks, (s.op j).phase = .finished := by
      intro j hj
      by_contra hne
      have hchild := h.waiting children hw j hj hne
      -- an unfinished child would be the one that has just reported its end
      obtain rfl : j = i := by
        by_contra hji
        simpa [he] using Finset.mem_erase.mpr ⟨hji, hchild⟩
      exact hne (h.filed.done j (.inr (by simp [hq])))
    have hstill := h.filed.still (h.begun (.inr ⟨children, hw⟩)) hfin
    rw [hfile]
    refine ⟨fun j => hop ▸ hstill j, noneBehind_concat fun hm => ?_⟩
    have := h.stepDrain (by simp [hq, hm])
    simp [hw] at this
  | request ht | create ht | test ht | gather ht | report ht | finish ht | reset ht =>
    rw [ht] at hd
    cases hd

theorem Stage.finished_step (h : Stage s) (hst : Step s a t) :
    t.drain = .finished → t.Settled := by
  intro hd
  have hkeep : s.drain = .finished → t.Settled := fun hs =>
    (h.finished hs).step hst (h.not_entry (by simp [hs]))
  cases drain_step hst with
  | keep ht => exact hkeep (ht ▸ hd)
  | finish ht hdrain hop htasks hempty =>
    have hstill := h.filed.still (h.begun (.inl hdrain)) fun i hi => by simp [hempty] at hi
    exact ⟨htasks.trans hempty, fun i => hop ▸ hstill i⟩
  | request ht | create ht | test ht | gather ht | report ht | wake ht | reset ht =>
    rw [ht] at hd
    cases hd

/-- No drain starts before the next attempt. -/
theorem rest_step (hst : Step s a t) (hpc : ∀ n, s.pc ≠ .entry n)
    (hd : s.drain = .idle ∨ s.drain = .finished) : t.drain = .idle ∨ t.drain = .finished := by
  cases drain_step hst with
  | keep ht => exact ht ▸ hd
  | request ht n hn => exact absurd hn (hpc n)
  | test ht rest hdrain => rcases hdrain with hdrain | hdrain <;> simp [hdrain] at hd
  | create ht rest hdrain | gather ht hdrain | report ht hdrain | wake ht i rest children hdrain
  | finish ht hdrain => simp [hdrain] at hd
  | reset ht => exact .inl ht

theorem Stage.past_step (h : Stage s) (hst : Step s a t) :
    ∀ n, t.pc = .exiting n ∨ t.pc = .idle n →
      t.Settled ∧ (t.drain = .idle ∨ t.drain = .finished) := by
  intro n hn
  have hkeep : ∀ m, s.pc = .exiting m ∨ s.pc = .idle m →
      t.Settled ∧ (t.drain = .idle ∨ t.drain = .finished) := by
    intro m hs
    have hpc : ∀ k, s.pc ≠ .entry k := fun k hk => by simp [hk] at hs
    exact ⟨(h.past m hs).1.step hst hpc, rest_step hst hpc (h.past m hs).2⟩
  cases hst with
  | closed m hpc hdrain =>
    have hset := h.finished hdrain
    exact ⟨⟨hset.tasks, hset.still⟩, .inr hdrain⟩
  | exit m hpc => exact hkeep m (.inl hpc)
  | close m hpc | attempt m hpc => simp at hn
  | gatherDone i rest hq hfree => exact hkeep n (by simpa using hn)
  | _ => all_goals exact hkeep n hn

theorem Stage.step (h : Stage s) (hst : Step s a t) : Stage t :=
  ⟨h.filed.step hst, h.entry_step hst, h.startDrain_step hst, h.stepDrain_step hst,
    h.requested_step hst, h.created_step hst, h.begun_step hst, h.waiting_step hst,
    h.woken_step hst, h.finished_step hst, h.past_step hst⟩

theorem Stage.run (r : Run Step) (h0 : Init (r.state 0)) :
    ∀ k, k ≤ r.length → Stage (r.state k) :=
  r.invariant (.init h0) fun _ _ _ hst h => h.step hst

/-! ## Cancelled by `drain` -/

/-- When `drain` meets a task that is not being cancelled, some task has not finished. -/
def Cooperative (s : State) (a : Label) : Prop :=
  ∀ targets, a = .pass targets → (∃ i ∈ s.tasks, (s.op i).cancelling = 0) →
    ∃ i ∈ s.tasks, (s.op i).phase ≠ .finished

/-- `drain` waits for operation `i`, or has let it go. -/
def Passed (s : State) (i : Nat) : Prop :=
  ((∃ children, s.drain = .waiting children) ∨ s.drain = .woken) ∧ (s.op i).phase ≠ .fresh ∨
    (s.op i).phase = .finished ∧ i ∉ s.tasks

theorem passed_of_pass {targets : Finset Nat} (h : Stage s) (hst : Step s (.pass targets) t)
    (hc : Cooperative s (.pass targets)) (hi : i ∈ targets) : Passed t i := by
  cases hst with
  | pass hdrain htasks =>
    obtain ⟨hmem, hcancel⟩ := Finset.mem_filter.mp hi
    obtain ⟨j, hj, hne⟩ := hc _ rfl ⟨i, hmem, hcancel⟩
    have hunfinished : s.unfinished ≠ ∅ := Finset.ne_empty_of_mem (Finset.mem_filter.mpr ⟨hj, hne⟩)
    refine .inl ⟨.inl ⟨s.unfinished, if_neg hunfinished⟩, ?_⟩
    rcases h.filed.begun i hmem with hp | hp | hp <;> simp [hp]

theorem phase_fresh (hst : Step s a t) (hi : (t.op i).phase = .fresh) :
    (s.op i).phase = .fresh := by
  cases hst <;> grind

theorem Passed.step (h : Stage s) (hp : Passed s i) (hst : Step s a t) : Passed t i := by
  rcases hp with ⟨hd, hp⟩ | ⟨hp, hi⟩
  swap
  · refine .inr ⟨phase_finished_step hst hp, fun hm => ?_⟩
    rcases tasks_step hst hm with hm | hm
    · exact hi hm
    · simp [hp] at hm
  have hpt : (t.op i).phase ≠ .fresh := fun hf => hp (phase_fresh hst hf)
  cases drain_step hst with
  | keep ht => exact .inl ⟨ht ▸ hd, hpt⟩
  | report ht => exact .inl ⟨.inl ⟨_, ht⟩, hpt⟩
  | wake ht => exact .inl ⟨.inr ht, hpt⟩
  | test ht rest hdrain hq hop htasks =>
    have hw : s.drain = .woken := by
      rcases hd with ⟨children, hd⟩ | hd
      · simp [hd] at hdrain
      · exact hd
    obtain ⟨hstill, hlast⟩ := h.woken hw
    have hfin := (hstill i).resolve_left hp
    rw [hq] at hlast
    refine .inr ⟨hop ▸ hfin, fun hi => ?_⟩
    have hmem : .completed i ∈ rest := by
      simpa [hq] using h.filed.finished i (htasks ▸ hi) hfin
    exact hlast.head _ hmem (.inr ⟨i, rfl⟩)
  | request ht n hpc =>
    refine absurd hpc (h.not_entry ?_ n)
    rcases hd with ⟨children, hd⟩ | hd <;> simp [hd]
  | reset ht n hpc =>
    have := (h.past n (.inr hpc)).2
    rcases hd with ⟨children, hd⟩ | hd <;> simp [hd] at this
  | create ht rest hdrain | gather ht hdrain | finish ht hdrain =>
    rcases hd with ⟨children, hd⟩ | hd <;> simp [hd] at hdrain

theorem Passed.not_mem {targets : Finset Nat} (hp : Passed s i)
    (hst : Step s (.pass targets) t) : i ∉ targets := by
  cases hst with
  | pass hdrain htasks =>
    rcases hp with ⟨⟨children, hd⟩ | hd, -⟩ | ⟨-, hi⟩
    · simp [hd] at hdrain
    · simp [hd] at hdrain
    · exact fun hm => hi (Finset.mem_of_mem_filter i hm)

/-! ## The barrier -/

/-- What the worker thread and its operations rely on, along one run. -/
structure Barrier (r : Run Step) : Prop where
  /-- Every submitted operation is done when `close_attempt` returns, the scope of the attempt is
  exited or the next attempt starts. -/
  settled : ∀ k, k < r.length → ∀ n,
    r.label k = .closed n ∨ r.label k = .exit n ∨ r.label k = .attempt n → (r.state k).Settled
  /-- `drain` cancels each task at most once. -/
  once : ∀ j k, j < k → k < r.length → ∀ first second, r.label j = .pass first →
    r.label k = .pass second → ∀ i ∈ first, i ∉ second
  /-- `drain` cancels no task that is being cancelled. -/
  gentle : ∀ k, k < r.length → ∀ targets, r.label k = .pass targets →
    ∀ i ∈ targets, ((r.state k).op i).cancelling = 0

theorem Stage.settled (h : Stage s) (hst : Step s a t)
    (ha : a = .closed n ∨ a = .exit n ∨ a = .attempt n) : s.Settled := by
  cases hst with
  | closed m hpc hdrain => exact h.finished hdrain
  | exit m hpc => exact (h.past m (.inl hpc)).1
  | attempt m hpc => exact (h.past m (.inr hpc)).1
  | _ => all_goals simp at ha

theorem cancelling_of_pass {targets : Finset Nat} (hst : Step s (.pass targets) t)
    (hi : i ∈ targets) : (s.op i).cancelling = 0 := by
  cases hst with
  | pass hdrain htasks => exact (Finset.mem_filter.mp hi).2

/-- **Submitted operations settle before their attempt ends**, and are cancelled at most once when
no pass of `drain` is left with finished tasks only. -/
theorem barrier_of_cooperative (r : Run Step) (h0 : Init (r.state 0))
    (hc : ∀ k, k < r.length → Cooperative (r.state k) (r.label k)) : Barrier r := by
  have hstage := Stage.run r h0
  refine ⟨fun k hk n hn => (hstage k hk.le).settled (r.step_ok k hk) hn, ?_,
    fun k hk targets hl i hi => cancelling_of_pass (hl ▸ r.step_ok k hk) hi⟩
  intro j k hjk hk first second hj hkl i hi
  have hjlt := hjk.trans hk
  have hpassed : Passed (r.state (j + 1)) i :=
    passed_of_pass (hstage j hjlt.le) (hj ▸ r.step_ok j hjlt) (hj ▸ hc j hjlt) hi
  have hlater : Stage (r.state k) ∧ Passed (r.state k) i :=
    r.stays (P := fun s => Stage s ∧ Passed s i)
      (fun _ _ _ hst h => ⟨h.1.step hst, h.2.step h.1 hst⟩) hjk hk.le
      ⟨hstage (j + 1) hjlt, hpassed⟩
  exact hlater.2.not_mem (hkl ▸ r.step_ok k hk)

/-! ## A pass over finished tasks -/

/-- `drain` is at its test, with finished tasks only. -/
structure Spinning (s : State) : Prop where
  drain : s.drain = .testing
  tasks : s.tasks ≠ ∅
  finished : ∀ i ∈ s.tasks, (s.op i).phase = .finished

theorem Spinning.unfinished (h : Spinning s) : s.unfinished = ∅ := by
  rw [State.unfinished, Finset.filter_eq_empty_iff]
  exact fun i hi => not_not_intro (h.finished i hi)

/-- Cancelling a finished task does nothing, so that the next pass finds the same tasks. -/
theorem Spinning.pass_op (h : Spinning s) (hi : i ∈ s.tasks) : s.pass.op i = s.op i := by
  simp only [State.pass]
  split
  · rw [Operation.cancel, if_pos (h.finished i hi)]
  · rfl

/-- Nothing else runs on the loop, and the worker thread waits. -/
theorem Spinning.step (h : Spinning s) (hs : Stage s) (hst : Step s a t) :
    Spinning t ∧ t.targets = s.targets := by
  have hdrain := h.drain
  have htasks := h.tasks
  have hfin := h.finished
  have hsame : t.drain = .testing → t.tasks = s.tasks →
      (∀ i ∈ s.tasks, (t.op i).phase = .finished ∧ (t.op i).cancelling = (s.op i).cancelling) →
      Spinning t ∧ t.targets = s.targets := by
    intro hd ht hop
    refine ⟨⟨hd, ht ▸ htasks, fun i hi => (hop i (ht ▸ hi)).1⟩, ?_⟩
    rw [State.targets, State.targets, ht]
    exact Finset.filter_congr fun i hi => by rw [(hop i hi).2]
  cases hst with
  | cancelFuture i hi hnot | wake i hi =>
    refine hsame hdrain rfl fun j hj => ?_
    have := hfin j hj
    by_cases hji : j = i
    · subst hji
      simp_all
    · simp [hji, this]
  | pass =>
    refine hsame (if_pos h.unfinished) rfl fun i hi => ?_
    rw [h.pass_op hi]
    exact ⟨hfin i hi, rfl⟩
  | drained hd ht => exact absurd ht htasks
  | submit n i hpc | close n hpc => exact absurd hpc (hs.not_entry (by simp [hdrain]) n)
  | closed n hpc hd => simp [hdrain] at hd
  | exit n hpc =>
    have := (hs.past n (.inl hpc)).2
    simp [hdrain] at this
  | attempt n hpc =>
    have := (hs.past n (.inr hpc)).2
    simp [hdrain] at this
  | startDrain rest hq hd | stepDrain rest hq hd => simp [hdrain] at hd
  | _ => all_goals exact absurd hdrain ‹s.drain ≠ .testing›

/-- **A pass over finished tasks only never ends**: `close_attempt` does not return, and every
further pass cancels the same tasks again. -/
theorem spinning_forever (r : Run Step) (h0 : Init (r.state 0)) {j k : Nat} (hjk : j ≤ k)
    (hk : k < r.length) (hs : Spinning (r.state j)) :
    (∀ n, r.label k ≠ .closed n) ∧
      ∀ targets, r.label k = .pass targets → targets = (r.state j).targets := by
  have hstage := Stage.run r h0
  have hlater : Stage (r.state k) ∧ Spinning (r.state k) ∧
      (r.state k).targets = (r.state j).targets :=
    r.stays (P := fun s => Stage s ∧ Spinning s ∧ s.targets = (r.state j).targets)
      (fun _ _ _ hst ⟨h1, h2, he⟩ => by
        obtain ⟨h2', he'⟩ := h2.step h1 hst
        exact ⟨h1.step hst, h2', he'.trans he⟩) hjk hk.le ⟨hstage j (hjk.trans hk.le), hs, rfl⟩
  have hstep := r.step_ok k hk
  refine ⟨fun n hn => ?_, fun targets ht => ?_⟩
  · rw [hn] at hstep
    generalize r.state (k + 1) = s' at hstep
    cases hstep with
    | closed m hpc hdrain => simp [hlater.2.1.drain] at hdrain
  · rw [ht] at hstep
    generalize r.state (k + 1) = s' at hstep
    cases hstep with
    | pass => exact hlater.2.2

/-! ## One submitted operation -/

def unsubmitted : State where
  queue := []
  op _ := ⟨.fresh, 0, false⟩
  tasks := ∅
  drain := .idle
  pc := .idle 0

theorem unsubmitted_init : Init unsubmitted :=
  ⟨rfl, fun _ => rfl, rfl, rfl, rfl⟩

/-- The entry submits one operation and returns; both tasks are created. -/
def submitted : Run Step :=
  let r := Run.start Step unsubmitted .inner
  let r := r.snoc (.attempt _ 0 rfl)
  let r := r.snoc (.submit _ 1 0 rfl rfl)
  let r := r.snoc (.close _ 1 rfl)
  let r := r.snoc (.start _ 0 [.startDrain] rfl (by decide) rfl)
  r.snoc (.startDrain _ [.step 0] rfl rfl)

/-- The operation suspends, and is cancelled and awaited by `drain`. -/
def awaited : Run Step :=
  let r := submitted.snoc (.suspend _ 0 0 [.stepDrain] rfl (by decide) (.inr ⟨rfl, rfl⟩))
  let r := r.snoc (.stepDrain _ [] rfl (.inl rfl))
  let r := r.snoc (.pass _ rfl (by decide))
  let r := r.snoc (.wake _ 0 rfl)
  let r := r.snoc (.finish _ 0 [] rfl (by decide) (.inl rfl))
  let r := r.snoc (.completed _ 0 [.gatherDone 0] rfl (by decide))
  let r := r.snoc (.gatherDone _ 0 [] rfl (by decide))
  let r := r.snoc (.stepDrain _ [] rfl (.inr rfl))
  let r := r.snoc (.drained _ rfl (by decide))
  let r := r.snoc (.closed _ 1 rfl rfl)
  let r := r.snoc (.exit _ 1 rfl)
  r.snoc (.attempt _ 1 rfl)

/-- The operation returns at once, and `drain` meets its finished task. -/
def returned : Run Step :=
  let r := submitted.snoc (.finish _ 0 [.stepDrain] rfl (by decide) (.inr ⟨rfl, rfl⟩))
  let r := r.snoc (.stepDrain _ [.completed 0] rfl (.inl rfl))
  let r := r.snoc (.pass _ rfl (by decide))
  r.snoc (.pass _ rfl (by decide))

theorem barrier_of_cooperative_awaited :
    Barrier awaited ∧ awaited.label 7 = .pass {0} ∧ awaited.label 16 = .attempt 2 := by
  refine ⟨barrier_of_cooperative awaited unsubmitted_init ?_, rfl, rfl⟩
  have hall : ∀ k, k < 17 → (match awaited.label k with
      | .pass _ =>
        decide (∃ i ∈ (awaited.state k).tasks, ((awaited.state k).op i).phase ≠ .finished)
      | _ => true) = true := by decide
  intro k hk targets hl _
  simpa only [hl, decide_eq_true_eq] using hall k hk

/-- **A task is cancelled again and again** once it has finished before `drain` looks at it. -/
theorem cancelled_again :
    Init (returned.state 0) ∧ Spinning (returned.state 7) ∧ ¬ Barrier returned := by
  refine ⟨unsubmitted_init, ⟨rfl, by decide, by decide⟩, fun h => ?_⟩
  exact h.once 7 8 (by decide) (by decide) _ _ rfl rfl 0 (by decide) (by decide)

end LclFastapi.Background.Bridge
