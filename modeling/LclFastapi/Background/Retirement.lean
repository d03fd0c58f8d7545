import LclFastapi.Background.Manager
import LclFastapi.Background.Stop

/-!
# Business teardown never overlaps a background thread

For every list of workers and every interleaving of `start`, the calls of `stop`, the retirement
task, the pump and the threads.

* **`supervised`**: when `start` has raised or a `stop` has ended, every thread that was started has
  finished and been joined; the body of `retire` never runs twice, and has run when a `stop` has
  ended; after a successful retirement `stop` raises `CancelledError` exactly when its caller was
  cancelled while it waited; and the business resources are torn down after all of this.
* `unflushed_unretired`: a `start` that raises from its initial flush has not run `retire`. No
  thread has been started then, and the `stop` callback of the lifespan is still to come.

The invariant `Inv` follows the retirement through its joins (`Retire.pending`); it needs of the
threads only that no step starts or revives one (`Keeps`). What a caller has heard of cancellations
is a second induction, over the history of the run (`heard_iff`).
-/

namespace LclFastapi.Background.Manager

open LclFastapi.Lib

variable {W : Type} {workers : List W} {auto_restart : W → Bool} {s t : State W} {a : Label W}
variable {w : W} {c : Caller}

/-! ## What a step of a thread keeps -/

/-- A step of a thread, or of someone who stops it, that neither starts it nor wakes it up. -/
structure Keeps (u v : Thread.State) : Prop where
  new : u.pc = .new → v.pc = .new
  finished : u.pc = .finished → v.pc = .finished

theorem finished_step {restart : Bool} {u v : Thread.State} {l : Thread.Label}
    (h : Thread.Step restart u l v) (hu : u.pc = .finished) : v.pc = .finished := by
  cases h with
  | cancel | stop | stopTask | stopIdle => exact hu
  | fail hpc => rcases hpc with hpc | ⟨m, hpc⟩ | ⟨m, level, raised, hpc⟩ <;> simp [hu] at hpc
  | escape m level hpc => rcases hpc with hpc | ⟨type, hpc⟩ <;> simp [hu] at hpc
  | _ =>
    all_goals
      have hpc := ‹u.pc = _›
      simp [hu] at hpc

theorem keeps_of_step {restart : Bool} {u v : Thread.State} {l : Thread.Label}
    (h : Thread.Step restart u l v) (hnew : u.pc = .new → v.pc = .new) : Keeps u v :=
  ⟨hnew, finished_step h⟩

theorem keeps_of_stop {restart : Bool} {u v : Thread.State} {n : Nat}
    (h : Thread.Step restart u (.stop n) v) : Keeps u v := by
  refine keeps_of_step h fun hu => ?_
  cases h with
  | stop => exact hu

theorem keeps_of_stopped {restart : Bool} {u v : Thread.State} {n : Nat} {scheduled : Option Nat}
    (h : Thread.Step restart u (.stopped n scheduled) v) : Keeps u v := by
  refine keeps_of_step h fun hu => ?_
  cases h with
  | stopTask | stopIdle => exact hu

/-! ## The invariant -/

/-- The workers `start` has still to launch. -/
def Start.rest : Start W → List W
  | .launching rest | .initializing _ rest | .checking rest => rest
  | _ => []

/-- `start` launches no further thread. -/
def Start.halted : Start W → Bool
  | .failing | .returned | .raised => true
  | _ => false

/-- The workers whose threads `retire` has still to join, once it has gathered them. -/
def Retire.pending : Retire W → Option (List W)
  | .joining rest => some rest
  | .finishing | .pumping | .ended _ => some []
  | _ => Option.none

/-- No thread has been started. -/
def State.Unstarted (s : State W) : Prop :=
  ∀ w, ¬ s.Started w

/-- Every thread that was started has finished and been joined. -/
def State.Retired (s : State W) : Prop :=
  ∀ w, s.Started w → (s.worker w).pc = .finished ∧ s.joined w = true

structure Inv (workers : List W) (s : State W) : Prop where
  registered : ∀ w, s.Started w → w ∈ workers
  rest : ∀ w ∈ s.start.rest, w ∈ workers
  early : s.start = .new ∨ s.start = .flushing → s.pump = .none ∧ s.Unstarted
  halted : s.retirement ≠ .none → s.start.halted = true
  called : ∀ c, s.calls c ≠ .idle → s.retirement ≠ .none
  ended : ∀ c e, s.calls c = .ended e → ∃ failed, s.retirement = .ended failed
  raised : s.start = .raised →
    s.pump = .none ∧ s.Unstarted ∨ ∃ failed, s.retirement = .ended failed
  joined : ∀ w, s.joined w = true → (s.worker w).pc = .finished
  pending : ∀ rest, s.retirement.pending = some rest →
    ∀ w, s.Started w → s.joined w = true ∨ w ∈ rest
  count : s.retires = if s.retirement.entered then 1 else 0

theorem Inv.init (h : Init s) : Inv workers s := by
  have hnew : s.Unstarted := fun w => not_not_intro (h.worker w).pc
  refine ⟨fun w hw => absurd hw (hnew w), ?_, fun _ => ⟨h.pump, hnew⟩, ?_, ?_, ?_, ?_, ?_, ?_, ?_⟩
  · simp [h.start, Start.rest]
  · simp [h.retirement]
  · simp [h.calls]
  · simp [h.calls]
  · simp [h.start]
  · simp [h.joined]
  · simp [h.retirement, Retire.pending]
  · simp [h.retirement, h.retires, Retire.entered]

/-- Once retirement has gone past its joins, every started thread is retired. -/
theorem Inv.retired (h : Inv workers s) (hp : s.retirement.pending = some []) : s.Retired := by
  intro w hw
  have hj := (h.pending [] hp w hw).resolve_right List.not_mem_nil
  exact ⟨h.joined w hj, hj⟩

/-- Before `start` is over, nobody has asked for the retirement. -/
theorem Inv.unasked (h : Inv workers s) (hs : s.start.halted = false) : s.retirement = .none := by
  by_contra hne
  simp [h.halted hne] at hs

theorem Inv.setStart (h : Inv workers s) {x : Start W} (hrest : ∀ w ∈ x.rest, w ∈ workers)
    (hearly : x = .new ∨ x = .flushing → s.pump = .none ∧ s.Unstarted)
    (hhalted : s.retirement ≠ .none → x.halted = true)
    (hraised : x = .raised →
      s.pump = .none ∧ s.Unstarted ∨ ∃ failed, s.retirement = .ended failed) :
    Inv workers { s with start := x } :=
  ⟨h.registered, hrest, hearly, hhalted, h.called, h.ended, hraised, h.joined, h.pending, h.count⟩

theorem Inv.setRetirement (h : Inv workers s) {x : Retire W} (hne : s.retirement ≠ .none)
    (hx : x ≠ .none) (hnot : ∀ failed, s.retirement ≠ .ended failed)
    (hpending : ∀ rest, x.pending = some rest → ∀ w, s.Started w → s.joined w = true ∨ w ∈ rest)
    (hcount : x.entered = s.retirement.entered) :
    Inv workers { s with retirement := x } := by
  refine ⟨h.registered, h.rest, h.early, fun _ => h.halted hne, fun c hc => hx, fun c e hc => ?_,
    fun hs => ?_, h.joined, hpending, by rw [hcount]; exact h.count⟩
  · obtain ⟨failed, hf⟩ := h.ended c e hc
    exact absurd hf (hnot failed)
  · rcases h.raised hs with hr | ⟨failed, hf⟩
    · exact .inl hr
    · exact absurd hf (hnot failed)

theorem Retire.request_of_ne {x : Retire W} (hx : x ≠ .none) : x.request = x := by
  cases x <;> first | rfl | exact absurd rfl hx

theorem Retire.entered_of_pending {x : Retire W} (hx : x.pending = some []) : x.entered = true := by
  cases x <;> first | rfl | simp [Retire.pending] at hx

/-- The end of `retire`, after its joins. -/
theorem Inv.settle (h : Inv workers s) {x : Retire W} (hs : s.retirement.pending = some [])
    (hx : x.pending = some []) (hnot : ∀ failed, s.retirement ≠ .ended failed) :
    Inv workers { s with retirement := x } := by
  refine h.setRetirement ?_ ?_ hnot (fun rest hr => ?_) ?_
  · intro hn
    simp [hn, Retire.pending] at hs
  · rintro rfl
    simp [Retire.pending] at hx
  · obtain rfl : [] = rest := by simpa [hx] using hr
    exact h.pending [] hs
  · rw [Retire.entered_of_pending hx, Retire.entered_of_pending hs]

variable [DecidableEq W]

/-- A step of a thread that has been launched changes nothing for the manager. -/
theorem Inv.setWorker (h : Inv workers s) {v : Thread.State} (hk : Keeps (s.worker w) v) :
    Inv workers (s.setWorker w v) := by
  have hstarted : ∀ x, (s.setWorker w v).Started x → s.Started x := by
    intro x hx hnew
    by_cases hxw : x = w
    · subst hxw
      exact hx (by simpa using hk.new hnew)
    · exact hx (by simpa [hxw] using hnew)
  have hunstarted : s.Unstarted → (s.setWorker w v).Unstarted := fun hs x hx =>
    hs x (hstarted x hx)
  refine ⟨fun x hx => h.registered x (hstarted x hx), h.rest,
    fun hs => ⟨(h.early hs).1, hunstarted (h.early hs).2⟩, h.halted, h.called, h.ended,
    fun hs => (h.raised hs).imp_left fun hp => ⟨hp.1, hunstarted hp.2⟩, fun x hx => ?_,
    fun rest hr x hx => h.pending rest hr x (hstarted x hx), h.count⟩
  have hfin := h.joined x hx
  by_cases hxw : x = w
  · subst hxw
    simpa using hk.finished hfin
  · simpa [hxw] using hfin

/-! ## The steps of `start` -/

theorem Inv.launch (h : Inv workers s) {rest : List W} {v : Thread.State}
    (hs : s.start = .launching (w :: rest)) (hnew : ¬ s.Started w) :
    Inv workers { s.setWorker w v with start := .initializing w rest } := by
  have hnone := h.unasked (by simp [hs, Start.halted])
  have hmem : ∀ x ∈ w :: rest, x ∈ workers := fun x hx =>
    h.rest x (by simpa [hs, Start.rest] using hx)
  refine ⟨fun x hx => ?_, fun x hx => hmem x (List.mem_cons_of_mem w hx), ?_, ?_, h.called, h.ended,
    ?_, fun x hx => ?_, ?_, h.count⟩
  · by_cases hxw : x = w
    · exact hmem x (by simp [hxw])
    · exact h.registered x fun he => hx (by simpa [hxw] using he)
  · simp
  · exact fun hne => absurd hnone hne
  · simp
  · have hxw : x ≠ w := by
      rintro rfl
      exact hnew (by rw [State.Started, h.joined x hx]; simp)
    simpa [hxw] using h.joined x hx
  · simp [hnone, Retire.pending]

theorem Inv.start_step (h : Inv workers s) (hst : StartStep workers auto_restart s t) :
    Inv workers t := by
  have hrest := h.rest
  cases hst with
  | start hs =>
    have hnone := h.unasked (by simp [hs, Start.halted])
    exact h.setStart (by simp [Start.rest]) (fun _ => h.early (.inl hs)) (by simp [hnone]) (by simp)
  | flushed hs =>
    have hnone := h.unasked (by simp [hs, Start.halted])
    refine ⟨h.registered, fun w hw => hw, by simp, by simp [hnone], h.called, h.ended, by simp,
      h.joined, h.pending, h.count⟩
  | flushFail hs =>
    exact h.setStart (by simp [Start.rest]) (by simp) (fun _ => rfl)
      fun _ => .inl (h.early (.inr hs))
  | launch w rest v hs hstep hnew => exact h.launch hs hnew
  | launched hs => exact h.setStart (by simp [Start.rest]) (by simp) (fun _ => rfl) (by simp)
  | ready w rest hs hready =>
    have hnone := h.unasked (by simp [hs, Start.halted])
    exact h.setStart (by simpa [hs, Start.rest] using hrest) (by simp) (by simp [hnone]) (by simp)
  | checked rest hs hpump =>
    have hnone := h.unasked (by simp [hs, Start.halted])
    exact h.setStart (by simpa [hs, Start.rest] using hrest) (by simp) (by simp [hnone]) (by simp)
  | raise e hs hc =>
    exact h.setStart (by simp [Start.rest]) (by simp) (fun _ => rfl)
      fun _ => .inr (h.ended .start e hc)
  | launchFail | readyFail | cancelled | dead =>
    exact h.setStart (by simp [Start.rest]) (by simp) (fun _ => rfl) (by simp)

/-! ## The steps of `retire` -/

/-- A thread that has finished is joined. -/
theorem Inv.setJoined (h : Inv workers s) {w : W} (hpc : (s.worker w).pc = .finished) :
    Inv workers { s with joined := Function.update s.joined w true } := by
  refine ⟨h.registered, h.rest, h.early, h.halted, h.called, h.ended, h.raised, fun x hx => ?_,
    fun rest hr x hx => ?_, h.count⟩
  · by_cases hxw : x = w
    · rw [hxw]
      exact hpc
    · exact h.joined x (by simpa [hxw] using hx)
  · refine (h.pending rest hr x hx).imp_left fun hj => ?_
    by_cases hxw : x = w <;> simp [hxw, hj]

theorem Inv.retire_step (h : Inv workers s) (hst : RetireStep workers auto_restart s a t) :
    Inv workers t := by
  cases hst with
  | enter hs =>
    have hcount := h.count
    rw [hs, Retire.entered, if_neg Bool.false_ne_true] at hcount
    refine ⟨h.registered, h.rest, h.early, fun _ => h.halted (by simp [hs]), by simp,
      fun c e hc => ?_, fun hr => ?_, h.joined, by simp [Retire.pending],
      by simp [hcount, Retire.entered]⟩
    · obtain ⟨failed, hf⟩ := h.ended c e hc
      simp [hs] at hf
    · exact .inl ((h.raised hr).resolve_right (by simp [hs]))
  | signal w rest c v hs hstep =>
    have hset := h.setWorker (keeps_of_stop hstep)
    exact hset.setRetirement (by simp [hs]) (by simp) (by simp [hs]) (by simp [Retire.pending])
      (by simp [hs, Retire.entered])
  | locked w rest c scheduled v hs hstep =>
    have hset := h.setWorker (keeps_of_stopped hstep)
    exact hset.setRetirement (by simp [hs]) (by simp) (by simp [hs]) (by simp [Retire.pending])
      (by simp [hs, Retire.entered])
  | signalled hs =>
    exact h.setRetirement (by simp [hs]) (by simp) (by simp [hs]) (by simp [Retire.pending])
      (by simp [hs, Retire.entered])
  | gathered hs hdone =>
    refine h.setRetirement (by simp [hs]) (by simp) (by simp [hs]) ?_ (by simp [hs, Retire.entered])
    intro rest hr w hw
    obtain rfl : workers = rest := by simpa [Retire.pending] using hr
    exact .inr (h.registered w hw)
  | join w rest hs hpc =>
    have hset := h.setJoined hpc
    refine hset.setRetirement (by simp [hs]) (by simp) (by simp [hs]) ?_
      (by simp [hs, Retire.entered])
    intro rest' hr x hx
    obtain rfl : rest = rest' := by simpa [Retire.pending] using hr
    by_cases hxw : x = w
    · exact .inl (by simp [hxw])
    · rcases hset.pending (w :: rest) (by simp [hs, Retire.pending]) x hx with hj | hm
      · exact .inl hj
      · exact .inr ((List.mem_cons.mp hm).resolve_left hxw)
  | skip w rest hs hnew =>
    refine h.setRetirement (by simp [hs]) (by simp) (by simp [hs]) ?_ (by simp [hs, Retire.entered])
    intro rest' hr x hx
    obtain rfl : rest = rest' := by simpa [Retire.pending] using hr
    rcases h.pending (w :: rest) (by simp [hs, Retire.pending]) x hx with hj | hm
    · exact .inl hj
    · rcases List.mem_cons.mp hm with rfl | hm
      · exact absurd hx hnew
      · exact .inr hm
  | joined hs =>
    refine h.setRetirement (by simp [hs]) (by simp) (by simp [hs]) ?_ (by simp [hs, Retire.entered])
    intro rest hr
    obtain rfl : [] = rest := by simpa [Retire.pending] using hr
    exact h.pending [] (by simp [hs, Retire.pending])
  | finish hs =>
    have hfin : Inv workers { s with finished := true } :=
      ⟨h.registered, h.rest, h.early, h.halted, h.called, h.ended, h.raised, h.joined, h.pending,
        h.count⟩
    exact hfin.settle (by simp [hs, Retire.pending]) (by split <;> rfl) (by simp [hs])
  | published hs hpump | fail hs hpump =>
    exact h.settle (by simp [hs, Retire.pending]) rfl (by simp [hs])

/-! ## The steps of `stop` -/

omit [DecidableEq W] in
theorem Inv.setCall (h : Inv workers s) (call : Call) (hne : s.retirement ≠ .none)
    (hend : ∀ e, call = .ended e → ∃ failed, s.retirement = .ended failed) :
    Inv workers (s.setCall c call) := by
  refine ⟨h.registered, h.rest, h.early, h.halted, fun d _ => hne, fun d e hd => ?_, h.raised,
    h.joined, h.pending, h.count⟩
  by_cases hdc : d = c
  · exact hend e (by simpa [hdc] using hd)
  · exact h.ended d e (by simpa [hdc] using hd)

omit [DecidableEq W] in
/-- The first call of `stop` comes when `start` is over. -/
theorem Inv.create (h : Inv workers s) (hnone : s.retirement = .none)
    (hhalted : s.start.halted = true) : Inv workers { s with retirement := .created } := by
  have hidle : ∀ c, s.calls c = .idle := fun c => by_contra fun hc => h.called c hc hnone
  refine ⟨h.registered, h.rest, h.early, fun _ => hhalted, by simp, fun c e hc => ?_, fun hr => ?_,
    h.joined, by simp [Retire.pending], ?_⟩
  · simp [hidle c] at hc
  · exact .inl ((h.raised hr).resolve_right (by simp [hnone]))
  · simpa [hnone, Retire.entered] using h.count

omit [DecidableEq W] in
theorem Inv.stop_step (h : Inv workers s) (hst : StopStep s a t) : Inv workers t := by
  cases hst with
  | call c hc hstart hnot =>
    have hhalted : s.start.halted = true := by
      split at hstart
      · simp [hstart, Start.halted]
      · rcases hstart with hs | hs <;> simp [hs, Start.halted]
    by_cases hr : s.retirement = .none
    · rw [hr]
      exact (h.create hr hhalted).setCall (.waiting false false) (by simp) (by simp)
    · rw [Retire.request_of_ne hr]
      exact h.setCall (.waiting false false) hr (by simp)
  | callEnded c failed hc hstart hs =>
    exact h.setCall _ (by simp [hs]) fun _ _ => ⟨failed, hs⟩
  | cancel c requested cancelled hc =>
    exact h.setCall _ (h.called c (by simp [hc])) (by simp)
  | caught c cancelled hc hnot => exact h.setCall _ (h.called c (by simp [hc])) (by simp)
  | caughtEnded c cancelled failed hc hs | resumed c cancelled failed hc hs =>
    exact h.setCall _ (by simp [hs]) fun _ _ => ⟨failed, hs⟩

/-! ## Whole runs -/

theorem Inv.step (h : Inv workers s) (hst : Step workers auto_restart s a t) : Inv workers t := by
  cases hst with
  | start t hs => exact h.start_step hs
  | retire t a hs => exact h.retire_step hs
  | stop t a hs => exact h.stop_step hs
  | thread w l v hs hnew =>
    exact h.setWorker (keeps_of_step hs fun hu => hnew (not_not_intro hu))
  | pumpFail os hp | pumpEnd hp hfin =>
    refine ⟨h.registered, h.rest, fun hs => ?_, h.halted, h.called, h.ended, fun hs => ?_, h.joined,
      h.pending, h.count⟩
    · simp [(h.early hs).1] at hp
    · exact .inr ((h.raised hs).resolve_left fun hn => by simp [hn.1] at hp)
  | teardown e hc htorn =>
    exact ⟨h.registered, h.rest, h.early, h.halted, h.called, h.ended, h.raised, h.joined,
      h.pending, h.count⟩

omit [DecidableEq W] in
/-- **After a call of `stop`, every started thread is retired**, and `retire` has run once. -/
theorem Inv.of_ended (h : Inv workers s) {e : Ending} (hc : s.calls c = .ended e) :
    s.Retired ∧ s.retires = 1 := by
  obtain ⟨failed, hf⟩ := h.ended c e hc
  refine ⟨h.retired (by rw [hf]; rfl), ?_⟩
  rw [h.count, hf]
  rfl

omit [DecidableEq W] in
/-- A `start` that raises has started nothing, or has waited for its own `stop`. -/
theorem Inv.of_raised (h : Inv workers s) (hs : s.start = .raised) :
    s.Retired ∧ (s.pump ≠ .none → s.retires = 1) := by
  rcases h.raised hs with ⟨hp, hnew⟩ | ⟨failed, hf⟩
  · exact ⟨fun w hw => absurd hw (hnew w), fun hne => absurd hp hne⟩
  · refine ⟨h.retired (by rw [hf]; rfl), fun _ => ?_⟩
    rw [h.count, hf]
    rfl

/-! ## Cancelled callers -/

/-- Whether a call that has not ended has been cancelled. -/
def Call.heard : Call → Option Bool
  | .idle => some false
  | .waiting requested cancelled => some (requested || cancelled)
  | .ended _ => none

omit [DecidableEq W] in
theorem StopStep.heard {b : Bool} (h : StopStep s a t) (hb : (t.calls c).heard = some b) :
    ∃ b', (s.calls c).heard = some b' ∧ (b = true ↔ b' = true ∨ a = .cancel c) := by
  cases h with
  | call d hd hstart hnot =>
    by_cases hcd : c = d
    · subst hcd
      simpa [Call.heard, hd] using hb.symm
    · exact ⟨b, by simpa [hcd] using hb, by simp⟩
  | cancel d requested cancelled hd =>
    by_cases hcd : c = d
    · subst hcd
      simp only [State.setCall_calls, if_true, Call.heard, Bool.true_or, Option.some.injEq] at hb
      exact ⟨requested || cancelled, by simp [hd, Call.heard], by simp [← hb]⟩
    · exact ⟨b, by simpa [hcd] using hb, by simp [Ne.symm hcd]⟩
  | caught d cancelled hd hnot =>
    by_cases hcd : c = d
    · subst hcd
      simpa [Call.heard, hd] using hb.symm
    · exact ⟨b, by simpa [hcd] using hb, by simp⟩
  | callEnded d failed hd | caughtEnded d cancelled failed hd | resumed d cancelled failed hd =>
    by_cases hcd : c = d
    · simp [hcd, Call.heard] at hb
    · exact ⟨b, by simpa [hcd] using hb, by simp⟩

theorem heard_step {b : Bool} (h : Step workers auto_restart s a t)
    (hb : (t.calls c).heard = some b) :
    ∃ b', (s.calls c).heard = some b' ∧ (b = true ↔ b' = true ∨ a = .cancel c) := by
  cases h with
  | stop t a hs => exact hs.heard hb
  | start t hs =>
    refine ⟨b, ?_, by simp⟩
    cases hs <;> exact hb
  | retire t a hs =>
    refine ⟨b, ?_, ?_⟩
    · cases hs <;> exact hb
    · cases hs <;> simp
  | _ => all_goals exact ⟨b, hb, by simp⟩

variable {r : Run (Step workers auto_restart)}

/-- A call that has not ended knows of the cancellations so far. -/
theorem heard_iff (h0 : Init (r.state 0)) :
    ∀ k, k ≤ r.length → ∀ b, ((r.state k).calls c).heard = some b →
      (b = true ↔ ∃ j, j < k ∧ r.label j = .cancel c) := by
  intro k
  induction k with
  | zero =>
    intro _ b hb
    rw [h0.calls c, Call.heard] at hb
    obtain rfl := Option.some.inj hb
    simp
  | succ k ih =>
    intro hk b hb
    obtain ⟨b', hb', hiff⟩ := heard_step (r.step_ok k hk) hb
    rw [hiff, ih (Nat.le_of_succ_le hk) b' hb']
    constructor
    · rintro (⟨j, hj, hl⟩ | hl)
      · exact ⟨j, Nat.lt_succ_of_lt hj, hl⟩
      · exact ⟨k, Nat.lt_succ_self k, hl⟩
    · rintro ⟨j, hj, hl⟩
      rcases Nat.lt_succ_iff_lt_or_eq.mp hj with hj | rfl
      · exact .inl ⟨j, hj, hl⟩
      · exact .inr hl

/-- A call ends as cancelled exactly when it has been. -/
theorem stopped_step {e : Ending} (h : Step workers auto_restart s (.stopped c e) t)
    (hok : s.retirement = .ended false) :
    ∃ b, (s.calls c).heard = some b ∧ (e = .cancelled ↔ b = true) := by
  cases h with
  | retire _ _ hs => cases hs
  | stop _ _ hs =>
    cases hs with
    | callEnded _ failed hd hstart hf =>
      obtain rfl : false = failed := by simpa [hok] using hf
      exact ⟨false, by simp [hd, Call.heard], by simp [ending]⟩
    | caughtEnded _ cancelled failed hd hf =>
      obtain rfl : false = failed := by simpa [hok] using hf
      exact ⟨true, by simp [hd, Call.heard], by simp [ending]⟩
    | resumed _ cancelled failed hd hf =>
      obtain rfl : false = failed := by simpa [hok] using hf
      exact ⟨cancelled, by simp [hd, Call.heard], by cases cancelled <;> simp [ending]⟩

/-! ## Retirement -/

/-- What the lifespan and the callers of `stop` rely on, along one run. -/
structure Supervised (r : Run (Step workers auto_restart)) : Prop where
  /-- When `start` has raised or a `stop` has ended, every started thread is retired. -/
  joined : ∀ k, k ≤ r.length →
    (r.state k).start = .raised ∨ (∃ c e, (r.state k).calls c = .ended e) → (r.state k).Retired
  /-- The body of `retire` never runs twice. -/
  atMostOnce : ∀ k, k ≤ r.length → (r.state k).retires ≤ 1
  /-- It has run once a `stop` has ended, or `start` has raised after its initial flush. -/
  once : ∀ k, k ≤ r.length →
    (∃ c e, (r.state k).calls c = .ended e) ∨
      (r.state k).start = .raised ∧ (r.state k).pump ≠ .none → (r.state k).retires = 1
  /-- After a successful retirement, `stop` raises `CancelledError` to cancelled callers only. -/
  cancelled : ∀ k, k < r.length → ∀ c e, r.label k = .stopped c e →
    (r.state k).retirement = .ended false →
      (e = .cancelled ↔ ∃ j, j < k ∧ r.label j = .cancel c)
  /-- The business resources are torn down after the threads. -/
  teardown : ∀ k, k < r.length → r.label k = .teardown →
    (r.state k).Retired ∧ (r.state k).retires = 1

/-- **Business teardown never overlaps a background thread.** -/
theorem supervised (r : Run (Step workers auto_restart)) (h0 : Init (r.state 0)) :
    Supervised r := by
  have hinv : ∀ k, k ≤ r.length → Inv workers (r.state k) :=
    r.invariant (.init h0) fun _ _ _ hst h => h.step hst
  refine ⟨fun k hk => ?_, fun k hk => ?_, fun k hk => ?_, fun k hk c e hl hok => ?_,
    fun k hk hl => ?_⟩
  · rintro (hs | ⟨c, e, hc⟩)
    · exact ((hinv k hk).of_raised hs).1
    · exact ((hinv k hk).of_ended hc).1
  · rw [(hinv k hk).count]
    split <;> simp
  · rintro (⟨c, e, hc⟩ | ⟨hs, hp⟩)
    · exact ((hinv k hk).of_ended hc).2
    · exact ((hinv k hk).of_raised hs).2 hp
  · obtain ⟨b, hb, hiff⟩ := stopped_step (hl ▸ r.step_ok k hk) hok
    rw [hiff]
    exact heard_iff h0 k hk.le b hb
  · have hstep := r.step_ok k hk
    rw [hl] at hstep
    generalize r.state (k + 1) = s' at hstep
    cases hstep with
    | retire _ _ hs => cases hs
    | stop _ _ hs => cases hs
    | teardown e hc htorn => exact (hinv k hk.le).of_ended hc

/-! ## One worker -/

def constructed : State Unit where
  worker _ := Thread.constructed
  start := .new
  pump := .none
  finished := false
  retirement := .none
  retires := 0
  joined _ := false
  calls _ := .idle
  torn := false

theorem constructed_init : Init constructed :=
  ⟨fun _ => Thread.constructed_init, rfl, rfl, rfl, rfl, rfl, fun _ => rfl, fun _ => rfl, rfl⟩

/-- The initial flush fails. -/
def unflushed : Run (Step [()] fun _ => true) :=
  let r := Run.start (Step [()] fun _ => true) constructed .inner
  let r := r.snoc (.start _ _ (.start _ rfl))
  r.snoc (.start _ _ (.flushFail _ rfl))

/-- **A failed initial flush leaves the retirement to a later `stop`.** -/
theorem unflushed_unretired :
    Init (unflushed.state 0) ∧ (unflushed.state 2).start = .raised ∧
      (unflushed.state 2).retires = 0 :=
  ⟨constructed_init, rfl, rfl⟩

/-- `start` launches the worker and returns. -/
def launched : Run (Step [()] fun _ => true) :=
  let r := Run.start (Step [()] fun _ => true) constructed .inner
  let r := r.snoc (.start _ _ (.start _ rfl))
  let r := r.snoc (.start _ _ (.flushed _ rfl))
  let r := r.snoc (.start _ _ (.launch _ () [] _ rfl (.start _ rfl) fun h => h rfl))
  let r := r.snoc (.thread _ () _ _ (.enter _ rfl) fun h => (h nofun).elim)
  let r := r.snoc (.thread _ () _ _ (.initialized _ rfl) fun h => (h nofun).elim)
  let r := r.snoc (.thread _ () _ _ (.publish _ rfl) fun h => (h nofun).elim)
  let r := r.snoc (.thread _ () _ _ (.ready _ rfl rfl) fun h => (h nofun).elim)
  let r := r.snoc (.start _ _ (.ready _ () [] rfl rfl))
  let r := r.snoc (.start _ _ (.checked _ [] rfl nofun))
  r.snoc (.start _ _ (.launched _ rfl))

/-- The lifespan calls `stop`, its task is cancelled, and the thread ends. -/
def retiring : Run (Step [()] fun _ => true) :=
  let r := launched
  let r := r.snoc (.stop _ _ _ (.call _ .lifespan rfl (.inl rfl) nofun))
  let r := r.snoc (.stop _ _ _ (.cancel _ .lifespan false false rfl))
  let r := r.snoc (.retire _ _ _ (.enter _ rfl))
  let r := r.snoc (.retire _ _ _ (.signal _ () [] 0 _ rfl (.stop _ 0 rfl)))
  let r := r.snoc (.retire _ _ _ (.locked _ () [] 0 none _ rfl (.stopIdle _ 0 rfl (.inr rfl))))
  let r := r.snoc (.stop _ _ _ (.caught _ .lifespan false rfl nofun))
  let r := r.snoc (.thread _ () _ _ (.leave _ 0 rfl rfl) fun h => (h nofun).elim)
  let r := r.snoc (.thread _ () _ _ (.aclose _ false rfl) fun h => (h nofun).elim)
  let r := r.snoc (.thread _ () _ _ (.drop _ false rfl) fun h => (h nofun).elim)
  let r := r.snoc (.thread _ () _ _ (.closeRunner _ false false rfl) fun h => (h nofun).elim)
  r.snoc (.thread _ () _ _ (.done _ rfl) fun h => (h nofun).elim)

/-- The retirement ends, and the business resources are torn down. -/
def served : Run (Step [()] fun _ => true) :=
  let r := retiring
  let r := r.snoc (.retire _ _ _ (.signalled _ rfl))
  let r := r.snoc (.retire _ _ _ (.gathered _ rfl fun _ _ _ => rfl))
  let r := r.snoc (.retire _ _ _ (.join _ () [] rfl rfl))
  let r := r.snoc (.retire _ _ _ (.joined _ rfl))
  let r := r.snoc (.retire _ _ _ (.finish _ rfl))
  let r := r.snoc (.pumpEnd _ rfl rfl)
  let r := r.snoc (.retire _ _ _ (.published _ rfl (.inl rfl)))
  let r := r.snoc (.stop _ _ _ (.resumed _ .lifespan true false rfl rfl))
  r.snoc (.teardown _ .cancelled rfl rfl)

theorem supervised_served :
    Supervised served ∧ served.label 28 = .stopped .lifespan .cancelled ∧
      served.label 29 = .teardown ∧ (served.state 30).retires = 1 :=
  ⟨supervised served constructed_init, rfl, rfl, rfl⟩

end LclFastapi.Background.Manager
