import LclFastapi.Health.Sampler
import LclFastapi.Verbose.Submission

/-!
# Cancellation never abandons a submitted write

`refresh` and `finish_file_update` end only after the operation they submitted has finished in its
thread, however often and whenever they are cancelled; and once a `stop` that waited for the
sampling task is over, no publication is at work and none will be.

* `Inv`: a publication that is not done is drained by a `refresh` under way, and at most the
  party whose turn it is has one.
* `phase_step`: between its own moves, a `refresh` keeps its phase and remembers a cancellation.
* **`writes_drained`**: both functions and `stop`, over every run.
* `overridden`: an exception outside `Exception` is raised although the caller was cancelled.
-/

namespace LclFastapi.Health

open Lib (Run)
open Lib.Shield

variable {ε : Type} {s s' : State ε} {l : Label ε} {c d : Caller} {k n : Nat}

/-! ## Projections of the composite updates -/

section Projections

variable (s : State ε) (c d : Caller) (e : Ending ε) (x : Refresh) (n : Nat) (y : Stop ε)

@[simp] theorem setRefresh_refresh :
    (s.setRefresh c x).refresh d = if d = c then x else s.refresh d := by
  unfold State.setRefresh
  exact Function.update_apply ..

@[simp] theorem setStop_refresh : (s.setStop n y).refresh = s.refresh := rfl

@[simp] theorem setStop_start : (s.setStop n y).start = s.start := rfl

@[simp] theorem setStop_sampling : (s.setStop n y).sampling = s.sampling := rfl

@[simp] theorem cancel_refresh :
    (s.cancel c).refresh d = if d = c then (s.refresh c).cancel else s.refresh d := by
  cases c <;> exact setRefresh_refresh ..

@[simp] theorem cancel_start : (s.cancel c).start = s.start := by
  cases c <;> rfl

@[simp] theorem cancel_publications : (s.cancel c).publications = s.publications := by
  cases c <;> rfl

@[simp] theorem cancel_submitted : (s.cancel c).submitted = s.submitted := by
  cases c <;> rfl

@[simp] theorem cancel_stops : (s.cancel c).stops = s.stops := by
  cases c <;> rfl

/-- A cancellation neither creates nor ends the sampling task, nor its `refresh`. -/
theorem cancel_sampling_iff {x : Sampling ε}
    (hx : x = .none ∨ x = .refreshing ∨ ∃ e, x = .ended e) :
    (s.cancel c).sampling = x ↔ s.sampling = x := by
  have hcancel : s.sampling.cancel = x ↔ s.sampling = x := by
    rcases hx with rfl | rfl | ⟨e, rfl⟩ <;> cases s.sampling <;> simp [Sampling.cancel]
  cases c with
  | start => exact Iff.rfl
  | sampling => exact hcancel

@[simp] theorem refreshed_refresh :
    (s.refreshed c e).refresh d = if d = c then .idle else s.refresh d := by
  unfold State.refreshed
  split <;> exact setRefresh_refresh ..

@[simp] theorem refreshed_stops : (s.refreshed c e).stops = s.stops := by
  unfold State.refreshed
  split <;> rfl

@[simp] theorem refreshed_publications : (s.refreshed c e).publications = s.publications := by
  unfold State.refreshed
  split <;> rfl

@[simp] theorem refreshed_submitted : (s.refreshed c e).submitted = s.submitted := by
  unfold State.refreshed
  split <;> rfl

end Projections

/-! ## What one step does to a `refresh` -/

/-- The steps by which a call of `refresh` begins, submits or ends. -/
def Label.Moves (c : Caller) : Label ε → Prop
  | .begin d | .submit d _ | .ended d _ _ => d = c
  | _ => False

/-- Everything a step can do to the `refresh` of one caller. -/
inductive RefreshStep (s s' : State ε) (c : Caller) : Label ε → Prop
  | kept (l : Label ε) (hm : ¬ l.Moves c) (h : s'.refresh c = s.refresh c)
      (hc : l.Cancels c → c = .sampling ∧ ∃ e, s.sampling = .ended e) : RefreshStep s s' c l
  | begin (h : s'.refresh c = .collecting false)
      (hturn : (c = .start ∧ s.start = .new ∧ s'.start = .refreshing) ∨
        (c = .sampling ∧ s.sampling = .sleeping false ∧ s'.sampling = .refreshing)) :
      RefreshStep s s' c (.begin c)
  | submit (hold : s.refresh c = .collecting false)
      (h : s'.refresh c = .draining s.submitted ⟨false, false⟩) :
      RefreshStep s s' c (.submit c s.submitted)
  | again (k : Nat) (w w' : Waiter) (hold : s.refresh c = .draining k w)
      (h : s'.refresh c = .draining k w') (hw : w'.arrived = w.arrived) :
      RefreshStep s s' c (.inner c)
  | cancel (l : Label ε) (hm : ¬ l.Moves c) (hl : l.Cancels c)
      (h : s'.refresh c = (s.refresh c).cancel) : RefreshStep s s' c l
  | ended (e : Ending ε) (x : Option (Raised ε)) (h : s'.refresh c = .idle)
      (hold : (x = none ∧ s.refresh c = .collecting false) ∨
        (e = .cancelled ∧ x = none ∧ s.refresh c = .collecting true) ∨
        ∃ k w o, s.refresh c = .draining k w ∧ s.publications k = some (.done o) ∧
          (e, x) = refreshEnding o w.arrived) :
      RefreshStep s s' c (.ended c e x)

/-- A step of another caller's `refresh` is none of this one's. -/
theorem RefreshStep.other {m : State ε} {x : Refresh} (hne : c ≠ d) (hm : ¬ l.Moves c)
    (hc : ¬ l.Cancels c) (hr : m.refresh = s.refresh) : RefreshStep s (m.setRefresh d x) c l := by
  refine .kept l hm ?_ fun h => absurd h hc
  rw [setRefresh_refresh, if_neg hne, hr]

theorem refresh_step (h : Step s l s') (c : Caller) : RefreshStep s s' c l := by
  cases h with
  | start h =>
    cases c with
    | start => exact .begin (by simp) (.inl ⟨rfl, h, rfl⟩)
    | sampling => exact .other nofun nofun nofun rfl
  | timer h =>
    cases c with
    | start => exact .other nofun nofun nofun rfl
    | sampling => exact .begin (by simp) (.inr ⟨rfl, h, rfl⟩)
  | first | endTask | thread | stopNone | stopRaised => exact .kept _ nofun rfl nofun
  | stopped n q e h hend hq => exact .kept _ nofun rfl nofun
  | submit d h =>
    by_cases hd : c = d
    · subst hd
      exact .submit h (by simp)
    · exact .other hd (fun h => hd h.symm) nofun rfl
  | collectFail d e h =>
    by_cases hd : c = d
    · subst hd
      exact .ended _ _ (by simp) (.inl ⟨rfl, h⟩)
    · exact .kept _ (fun h => hd h.symm) (by simp [hd]) nofun
  | collectCancel d h =>
    by_cases hd : c = d
    · subst hd
      exact .ended _ _ (by simp) (.inr (.inl ⟨rfl, rfl, h⟩))
    · exact .kept _ (fun h => hd h.symm) (by simp [hd]) nofun
  | leave d k w op o caught h hop hw =>
    by_cases hd : c = d
    · subst hd
      obtain ⟨rfl, rfl⟩ := leaves_iff.mp hw
      exact .ended _ _ (by simp) (.inr (.inr ⟨k, w, o, h, hop, rfl⟩))
    · exact .kept _ (fun h => hd h.symm) (by simp [hd]) nofun
  | again d k w w' op h hop hw =>
    by_cases hd : c = d
    · subst hd
      exact .again k w w' h (by simp) hw.arrived
    · exact .other hd nofun nofun rfl
  | cancel d =>
    by_cases hd : c = d
    · subst hd
      exact .cancel _ nofun rfl (by simp)
    · exact .kept _ nofun (by simp [hd]) fun h => absurd h.symm hd
  | stop n h ht =>
    cases c with
    | start => exact .kept _ nofun (by simp) nofun
    | sampling => exact .cancel _ nofun rfl (by simp)
  | cancelStop n q h hrun =>
    cases c with
    | start => exact .kept _ nofun (by simp) nofun
    | sampling => exact .cancel _ nofun rfl (by simp)
  | cancelStopEnded n q e h hend => exact .kept _ nofun rfl fun h => ⟨h, e, hend⟩

/-- What a step does to the publications. -/
theorem publications_step (h : Step s l s') :
    ((∀ c k, l ≠ .submit c k) ∧ s'.publications = s.publications ∧
      s'.submitted = s.submitted) ∨
      (∃ c, l = .submit c s.submitted ∧ s'.refresh c = .draining s.submitted ⟨false, false⟩ ∧
        s'.publications = Function.update s.publications s.submitted (some .queued)) ∨
      ∃ k op op', l = .thread k ∧ s.publications k = some op ∧ Operation.Step op op' ∧
        s'.refresh = s.refresh ∧
        s'.publications = Function.update s.publications k (some op') := by
  cases h with
  | submit c h => exact .inr (.inl ⟨c, rfl, by simp, rfl⟩)
  | thread k op op' hop h => exact .inr (.inr ⟨k, op, op', rfl, hop, h, rfl, rfl⟩)
  | collectFail | collectCancel | leave | cancel => exact .inl ⟨nofun, by simp, by simp⟩
  | stop | cancelStop =>
    exact .inl ⟨nofun, cancel_publications s .sampling, cancel_submitted s .sampling⟩
  | _ => exact .inl ⟨nofun, rfl, rfl⟩

/-! ## The invariant -/

/-- `start` has its `refresh` before the sampling task exists, and the task its own in turn. -/
structure Turn (s : State ε) : Prop where
  starting : s.refresh .start ≠ .idle → s.start = .refreshing
  sampling : s.refresh .sampling ≠ .idle → s.sampling = .refreshing
  born : s.sampling ≠ .none → s.start = .returned

/-- Whose turn it is, and who drains what. -/
structure Inv (s : State ε) : Prop where
  turn : Turn s
  /-- A publication is done or drained. -/
  owned : ∀ k op, s.publications k = some op →
    (∃ o, op = .done o) ∨ ∃ c w, s.refresh c = .draining k w
  pending : ∀ c k w, s.refresh c = .draining k w → ∃ op, s.publications k = some op

theorem Init.inv (h : Init s) : Inv s where
  turn := ⟨fun hc => absurd (h.refresh .start) hc, fun hc => absurd (h.refresh .sampling) hc,
    fun hs => absurd h.sampling hs⟩
  owned k _ hop := absurd ((h.publications k).symm.trans hop) nofun
  pending c _ _ hc := absurd ((h.refresh c).symm.trans hc) nofun

theorem cancel_ne_idle {x : Refresh} : x.cancel ≠ .idle ↔ x ≠ .idle := by
  cases x <;> simp [Refresh.cancel]

theorem Turn.cancel (ht : Turn s) : Turn (s.cancel c) := by
  have hne (d : Caller) : (s.cancel c).refresh d ≠ .idle → s.refresh d ≠ .idle := by
    intro h
    rw [cancel_refresh] at h
    split at h
    · rename_i hd
      exact hd ▸ cancel_ne_idle.mp h
    · exact h
  refine ⟨fun h => ?_, fun h => ?_, fun h => ?_⟩
  · rw [cancel_start]
    exact ht.starting (hne _ h)
  · exact (cancel_sampling_iff s c (.inr (.inl rfl))).mpr (ht.sampling (hne _ h))
  · rw [cancel_start]
    exact ht.born fun h0 => h ((cancel_sampling_iff s c (.inl rfl)).mpr h0)

/-- The end of a `refresh` passes the turn on. -/
theorem Turn.refreshed {e : Ending ε} (ht : Turn s) (hc : s.refresh c ≠ .idle) :
    Turn (s.refreshed c e) := by
  have hne (d : Caller) (h : (s.refreshed c e).refresh d ≠ .idle) :
      d ≠ c ∧ s.refresh d ≠ .idle := by
    rw [refreshed_refresh] at h
    split at h
    · exact absurd rfl h
    · exact ⟨‹_›, h⟩
  cases c with
  | start =>
    have hnone : s.sampling = .none := by
      by_contra hs
      exact absurd ((ht.starting hc).symm.trans (ht.born hs)) nofun
    refine ⟨fun h => absurd rfl (hne _ h).1, fun h => ?_, fun h => ?_⟩
    · exact absurd ((ht.sampling (hne _ h).2).symm.trans hnone) nofun
    · cases e with
      | returned => rfl
      | raised | cancelled => exact absurd hnone h
  | sampling =>
    have hret : s.start = .returned := ht.born (by rw [ht.sampling hc]; exact nofun)
    have hstart : (s.refreshed .sampling e).start = .returned := by
      unfold State.refreshed
      split <;> first | exact hret | contradiction
    refine ⟨fun h => ?_, fun h => absurd rfl (hne _ h).1, fun _ => hstart⟩
    exact absurd ((ht.starting (hne _ h).2).symm.trans hret) nofun

theorem Turn.step (ht : Turn s) (h : Step s l s') : Turn s' := by
  have idle {x : Sampling ε} (hx : s.sampling = x) (hne : x ≠ .refreshing) :
      s.refresh .sampling = .idle := by
    by_contra hr
    exact hne (hx.symm.trans (ht.sampling hr))
  -- a phase of its own `refresh` does not change whose turn it is
  have phase {m : State ε} {d : Caller} {x : Refresh} (hd : s.refresh d ≠ .idle)
      (hr : m.refresh = s.refresh) (hs : m.start = s.start) (hp : m.sampling = s.sampling) :
      Turn (m.setRefresh d x) := by
    have hne (c : Caller) (h : (m.setRefresh d x).refresh c ≠ .idle) : s.refresh c ≠ .idle := by
      by_cases hc : c = d
      · exact hc ▸ hd
      · rw [setRefresh_refresh, if_neg hc, hr] at h
        exact h
    refine ⟨fun h => hs.trans (ht.starting (hne _ h)), fun h => hp.trans (ht.sampling (hne _ h)),
      fun h => hs.trans (ht.born fun h0 => h (hp.trans h0))⟩
  cases h with
  | start h =>
    have hnone : s.sampling = .none := by
      by_contra hne
      exact absurd (h.symm.trans (ht.born hne)) nofun
    exact ⟨fun _ => rfl, fun hr => ht.sampling (by simpa using hr), fun hr => absurd hnone hr⟩
  | timer h =>
    have hret := ht.born (by rw [h]; exact nofun)
    exact ⟨fun hr => ht.starting (by simpa using hr), fun _ => rfl, fun _ => hret⟩
  | first h =>
    exact ⟨ht.starting, fun hr => absurd (idle h nofun) hr,
      fun _ => ht.born (by rw [h]; exact nofun)⟩
  | endTask h =>
    have hr : s.refresh .sampling = .idle := by
      rcases h with h | h <;> exact idle h nofun
    refine ⟨ht.starting, fun h => absurd hr h, fun _ => ht.born ?_⟩
    rcases h with h | h <;> rw [h] <;> exact nofun
  | submit c h => exact phase (by rw [h]; exact nofun) rfl rfl rfl
  | again c k w w' op h => exact phase (by rw [h]; exact nofun) rfl rfl rfl
  | collectFail c e h | collectCancel c h => exact ht.refreshed (by rw [h]; exact nofun)
  | leave c k w op o caught h => exact ht.refreshed (by rw [h]; exact nofun)
  | cancel c => exact ht.cancel
  | stop n h ht' =>
    have hc : Turn (s.cancel .sampling) := ht.cancel
    exact ⟨hc.starting, hc.sampling, hc.born⟩
  | cancelStop n q h hrun => exact ht.cancel
  | thread | stopNone | cancelStopEnded | stopped | stopRaised =>
    exact ⟨ht.starting, ht.sampling, ht.born⟩

/-- A publication under way stays drained until it is done. -/
theorem RefreshStep.drained {w : Waiter} (h : RefreshStep s s' c l) (hi : Inv s)
    (hd : s.refresh c = .draining k w) :
    (∃ w', s'.refresh c = .draining k w') ∨ ∃ o, s.publications k = some (.done o) := by
  cases h with
  | kept l hm h hc => exact .inl ⟨w, h.trans hd⟩
  | begin h hturn =>
    rcases hturn with ⟨rfl, hs, -⟩ | ⟨rfl, hs, -⟩
    · exact absurd ((hi.turn.starting (by rw [hd]; exact nofun)).symm.trans hs) nofun
    · exact absurd ((hi.turn.sampling (by rw [hd]; exact nofun)).symm.trans hs) nofun
  | submit hold h => exact absurd (hd.symm.trans hold) nofun
  | again k' v v' hold h hv =>
    obtain ⟨rfl, rfl⟩ := Refresh.draining.inj (hd.symm.trans hold)
    exact .inl ⟨v', h⟩
  | cancel l hm hl h => exact .inl ⟨w.cancel, by rw [h, hd]; rfl⟩
  | ended e x h hold =>
    rcases hold with ⟨-, hold⟩ | ⟨-, -, hold⟩ | ⟨k', w', o, hold, ho, -⟩
    · exact absurd (hd.symm.trans hold) nofun
    · exact absurd (hd.symm.trans hold) nofun
    · obtain ⟨rfl, rfl⟩ := Refresh.draining.inj (hd.symm.trans hold)
      exact .inr ⟨o, ho⟩

theorem publications_some (h : Step s l s') (hk : ∃ op, s.publications k = some op) :
    ∃ op, s'.publications k = some op := by
  rcases publications_step h with ⟨-, he, -⟩ | ⟨c, -, -, he⟩ | ⟨m, op, op', -, -, -, -, he⟩
  · rw [he]
    exact hk
  · rw [he, Function.update_apply]
    split
    · exact ⟨_, rfl⟩
    · exact hk
  · rw [he, Function.update_apply]
    split
    · exact ⟨_, rfl⟩
    · exact hk

theorem owned_step (hi : Inv s) (h : Step s l s') {op : Operation ε Unit}
    (hop : s'.publications k = some op) :
    (∃ o, op = .done o) ∨ ∃ c w, s'.refresh c = .draining k w := by
  have old {op : Operation ε Unit} (hop : s.publications k = some op) :
      (∃ o, op = .done o) ∨ ∃ c w, s'.refresh c = .draining k w := by
    rcases hi.owned k op hop with hd | ⟨c, w, hd⟩
    · exact .inl hd
    · rcases (refresh_step h c).drained hi hd with ⟨w', hw⟩ | ⟨o, ho⟩
      · exact .inr ⟨c, w', hw⟩
      · exact .inl ⟨o, Option.some.inj (hop.symm.trans ho)⟩
  rcases publications_step h with ⟨-, he, -⟩ | ⟨c, -, hc, he⟩ | ⟨m, op₀, op', -, hop₀, hs, hr, he⟩
  · exact old (he ▸ hop)
  · rw [he, Function.update_apply] at hop
    split at hop
    · rename_i hk
      exact .inr ⟨c, _, hk ▸ hc⟩
    · exact old hop
  · rw [he, Function.update_apply] at hop
    split at hop
    · rename_i hk
      subst hk
      rcases old hop₀ with ⟨o, rfl⟩ | hd
      · exact absurd rfl hs.not_done
      · exact .inr hd
    · exact old hop

theorem pending_step (hi : Inv s) (h : Step s l s') {w : Waiter}
    (hd : s'.refresh c = .draining k w) : ∃ op, s'.publications k = some op := by
  cases refresh_step h c with
  | kept l hm he hc => exact publications_some h (hi.pending c k w (he.symm.trans hd))
  | begin he hturn => exact absurd (he.symm.trans hd) nofun
  | submit hold he =>
    obtain ⟨rfl, -⟩ := Refresh.draining.inj (he.symm.trans hd)
    rcases publications_step h with ⟨hl, -⟩ | ⟨d, -, -, hp⟩ | ⟨m, op, op', -, -, -, hr, -⟩
    · exact absurd rfl (hl _ _)
    · exact ⟨.queued, by rw [hp, Function.update_self]⟩
    · exact absurd (hold.symm.trans ((congrFun hr c).symm.trans he)) nofun
  | again m v v' hold he hv =>
    obtain ⟨rfl, -⟩ := Refresh.draining.inj (he.symm.trans hd)
    exact publications_some h (hi.pending c m v hold)
  | cancel l hm hl he =>
    rw [he] at hd
    cases hold : s.refresh c with
    | idle => rw [hold] at hd; exact absurd hd nofun
    | collecting q => rw [hold] at hd; exact absurd hd nofun
    | draining m v =>
      rw [hold] at hd
      obtain ⟨rfl, -⟩ := Refresh.draining.inj hd
      exact publications_some h (hi.pending c m v hold)
  | ended e x he hold => exact absurd (he.symm.trans hd) nofun

theorem inv_step (hi : Inv s) (h : Step s l s') : Inv s' where
  turn := hi.turn.step h
  owned _ _ hop := owned_step hi h hop
  pending _ _ _ hd := pending_step hi h hd

/-! ## A phase of a `refresh` -/

/-- Collecting, or draining one publication. -/
def Refresh.phase : Refresh → Option (Option Nat)
  | .idle => none
  | .collecting _ => some none
  | .draining k _ => some (some k)

/-- A cancellation has arrived in this phase. -/
def Refresh.arrived : Refresh → Bool
  | .idle => false
  | .collecting requested => requested
  | .draining _ w => w.arrived

theorem Refresh.cancel_phase (x : Refresh) : x.cancel.phase = x.phase := by
  cases x <;> rfl

theorem Refresh.cancel_arrived {x : Refresh} (hx : x.phase ≠ none) : x.cancel.arrived = true := by
  cases x with
  | idle => exact absurd rfl hx
  | collecting | draining => rfl

/-- Between its own moves, a `refresh` keeps its phase and remembers exactly the cancellations. -/
theorem phase_step (hi : Inv s) (h : Step s l s') (hm : ¬ l.Moves c)
    (hp : (s.refresh c).phase ≠ none) : (s'.refresh c).phase = (s.refresh c).phase ∧
      ((s'.refresh c).arrived = true ↔ (s.refresh c).arrived = true ∨ l.Cancels c) := by
  cases refresh_step h c with
  | kept l _ h hc =>
    rw [h]
    refine ⟨rfl, ⟨.inl, fun ha => ha.resolve_right fun hl => ?_⟩⟩
    obtain ⟨rfl, e, he⟩ := hc hl
    have hr := hi.turn.sampling fun h0 => hp (by rw [h0]; rfl)
    exact absurd (he.symm.trans hr) nofun
  | begin | submit | ended => exact absurd rfl hm
  | again k w w' hold he hw =>
    rw [he, hold]
    refine ⟨rfl, ⟨fun ha => .inl (hw.symm.trans ha), fun ha => ?_⟩⟩
    rcases ha with ha | ha
    · exact hw.trans ha
    · exact absurd ha nofun
  | cancel l _ hl h =>
    rw [h]
    exact ⟨Refresh.cancel_phase _, ⟨fun _ => .inr hl, fun _ => Refresh.cancel_arrived hp⟩⟩

section Runs

variable {r : Run (Step (ε := ε))} {i j m : Nat}

theorem Run.inv (h0 : Init (r.state 0)) (hj : j ≤ r.length) : Inv (r.state j) :=
  r.invariant h0.inv (fun _ _ _ h hi => inv_step hi h) j hj

/-- Over a stretch without its own moves, a `refresh` has been cancelled exactly if a step of the
stretch did. -/
theorem phase_stretch (h0 : Init (r.state 0)) (hij : i ≤ j) (hj : j ≤ r.length)
    (hm : ∀ m, i ≤ m → m < j → ¬ (r.label m).Moves c)
    (hp : ((r.state i).refresh c).phase ≠ none) :
    ((r.state j).refresh c).phase = ((r.state i).refresh c).phase ∧
      (((r.state j).refresh c).arrived = true ↔ ((r.state i).refresh c).arrived = true ∨
        ∃ m, i ≤ m ∧ m < j ∧ (r.label m).Cancels c) := by
  have step {m : Nat} (him : i ≤ m) (hmj : m < j)
      (he : ((r.state m).refresh c).phase = ((r.state i).refresh c).phase) :=
    phase_step (Run.inv h0 (by omega)) (r.step_ok m (by omega)) (hm m him hmj) (he ▸ hp)
  have same : ∀ m, i ≤ m → m ≤ j →
      ((r.state m).refresh c).phase = ((r.state i).refresh c).phase := by
    intro m him
    induction m, him using Nat.le_induction with
    | base => exact fun _ => rfl
    | succ m him ih =>
      intro hmj
      have hm := ih (Nat.le_of_succ_le hmj)
      exact (step him hmj hm).1.trans hm
  refine ⟨same j hij le_rfl, Run.flag_iff (f := fun m => ((r.state m).refresh c).arrived = true)
    (E := fun m => (r.label m).Cancels c) hij fun m him hmj => ?_⟩
  exact (step him hmj (same m him hmj.le)).2

/-- The call of `refresh` that submitted publication `k` at step `i` ends at step `j`. -/
structure Submitted (r : Run (Step (ε := ε))) (i j : Nat) (c : Caller) (k : Nat) (e : Ending ε)
    (logged : Option (Raised ε)) : Prop where
  lt : i < j
  le : j < r.length
  submit : r.label i = .submit c k
  open_ : ∀ m, i < m → m < j → ¬ (r.label m).Moves c
  ended : r.label j = .ended c e logged

/-- The call of `refresh` that began at step `i` has not submitted or ended before step `j`. -/
structure Collecting (r : Run (Step (ε := ε))) (i j : Nat) (c : Caller) : Prop where
  lt : i < j
  le : j < r.length
  begin : r.label i = .begin c
  open_ : ∀ m, i < m → m < j → ¬ (r.label m).Moves c

/-- A call of `stop` that waited for the sampling task is over after step `i`. -/
structure Joined (r : Run (Step (ε := ε))) (i n : Nat) : Prop where
  lt : i < r.length
  waiting : ∃ q, (r.state i).stops n = .waiting q
  over_ : r.label i = .stopped n ∨ ∃ e, r.label i = .stopRaised n e

/-- What a sampler guarantees of the publications it submits. -/
structure Drained (r : Run (Step (ε := ε))) : Prop where
  /-- A `refresh` ends only after its publication has finished in its thread, as the outcome and
  the cancellations since the submission say. -/
  ends : ∀ i j c k e logged, Submitted r i j c k e logged → ∃ o caught,
    (r.state j).publications k = some (.done o) ∧ (e, logged) = refreshEnding o caught ∧
      (caught = true ↔ ∃ m, i < m ∧ m < j ∧ (r.label m).Cancels c)
  /-- A cancellation before that ends it, with nothing submitted. -/
  early : ∀ i j c, Collecting r i j c → (r.label j).Moves c →
    (∃ m, i < m ∧ m < j ∧ (r.label m).Cancels c) → r.label j = .ended c .cancelled none
  /-- After a `stop` no publication is at work, and none is submitted. -/
  stops : ∀ i n, Joined r i n → ∀ m, i ≤ m → m ≤ r.length →
    (∀ k op, (r.state m).publications k = some op → ∃ o, op = .done o) ∧
      (r.state m).submitted = (r.state i).submitted

theorem Submitted.drained {e : Ending ε} {logged : Option (Raised ε)} (h0 : Init (r.state 0))
    (h : Submitted r i j c k e logged) : ∃ o caught,
    (r.state j).publications k = some (.done o) ∧ (e, logged) = refreshEnding o caught ∧
      (caught = true ↔ ∃ m, i < m ∧ m < j ∧ (r.label m).Cancels c) := by
  have hle := h.le
  have hlt := h.lt
  -- the loop begins without a cancellation
  have hstart : (r.state (i + 1)).refresh c = .draining k ⟨false, false⟩ := by
    have hstep := r.step_ok i (by omega)
    rw [h.submit] at hstep
    generalize r.state (i + 1) = s' at hstep
    cases hstep with
    | submit d hc => simp
  have hm (m : Nat) (him : i + 1 ≤ m) (hmj : m < j) : ¬ (r.label m).Moves c := h.open_ m him hmj
  obtain ⟨hphase, hflag⟩ := phase_stretch h0 (by omega) hle.le hm (by rw [hstart]; exact nofun)
  have hnone : ((r.state (i + 1)).refresh c).arrived = false := by rw [hstart]; rfl
  rw [hnone] at hflag
  rw [hstart] at hphase
  have hstep := r.step_ok j hle
  rw [h.ended] at hstep
  cases refresh_step hstep c with
  | kept l hm => exact absurd rfl hm
  | cancel l hm => exact absurd rfl hm
  | ended e x _ hold =>
    rcases hold with ⟨-, hold⟩ | ⟨-, -, hold⟩ | ⟨k', w, o, hold, ho, he⟩
    · rw [hold] at hphase
      exact absurd hphase nofun
    · rw [hold] at hphase
      exact absurd hphase nofun
    · rw [hold] at hphase hflag
      obtain rfl : k' = k := Option.some.inj (Option.some.inj hphase)
      refine ⟨o, w.arrived, ho, he, hflag.trans ?_⟩
      simp only [Bool.false_eq_true, false_or]
      exact Iff.rfl

theorem Collecting.cancelled (h0 : Init (r.state 0)) (h : Collecting r i j c)
    (hmove : (r.label j).Moves c) (hc : ∃ m, i < m ∧ m < j ∧ (r.label m).Cancels c) :
    r.label j = .ended c .cancelled none := by
  have hle := h.le
  have hlt := h.lt
  have hstart : (r.state (i + 1)).refresh c = .collecting false := by
    have hstep := r.step_ok i (by omega)
    rw [h.begin] at hstep
    generalize r.state (i + 1) = s' at hstep
    cases hstep <;> simp
  have hm (m : Nat) (him : i + 1 ≤ m) (hmj : m < j) : ¬ (r.label m).Moves c := h.open_ m him hmj
  obtain ⟨hphase, hflag⟩ := phase_stretch h0 (by omega) hle.le hm (by rw [hstart]; exact nofun)
  have harrived := hflag.mpr (.inr hc)
  rw [hstart] at hphase
  have hq : (r.state j).refresh c = .collecting true := by
    cases hr : (r.state j).refresh c with
    | idle => rw [hr] at hphase; exact absurd hphase nofun
    | draining => rw [hr] at hphase; exact absurd hphase nofun
    | collecting q => rw [hr] at harrived; exact congrArg _ harrived
  have hstep := r.step_ok j hle
  generalize r.state (j + 1) = s' at hstep
  have hr := refresh_step hstep c
  revert hr hmove
  generalize r.label j = l
  intro hmove hr
  cases hr with
  | kept l hm => exact absurd hmove hm
  | cancel l hm => exact absurd hmove hm
  | again => exact absurd hmove nofun
  | begin _ hturn =>
    have hne : (r.state j).refresh c ≠ .idle := by rw [hq]; exact nofun
    have hturns := (Run.inv h0 hle.le).turn
    rcases hturn with ⟨rfl, hs, -⟩ | ⟨rfl, hs, -⟩
    · exact absurd (hs.symm.trans (hturns.starting hne)) nofun
    · exact absurd (hs.symm.trans (hturns.sampling hne)) nofun
  | submit hold => exact absurd (hq.symm.trans hold) nofun
  | ended e x _ hold =>
    rcases hold with ⟨-, hold⟩ | ⟨rfl, rfl, -⟩ | ⟨k, w, o, hold, -⟩
    · exact absurd (hq.symm.trans hold) nofun
    · rfl
    · exact absurd (hq.symm.trans hold) nofun

/-- The sampling task has ended, and `start` has. -/
structure Rest (s : State ε) : Prop where
  start : s.start = .returned
  sampling : ∃ e, s.sampling = .ended e

theorem Rest.idle (hr : Rest s) (hi : Inv s) (c : Caller) : s.refresh c = .idle := by
  by_contra hc
  cases c with
  | start => exact absurd (hr.start.symm.trans (hi.turn.starting hc)) nofun
  | sampling =>
    obtain ⟨e, he⟩ := hr.sampling
    exact absurd (he.symm.trans (hi.turn.sampling hc)) nofun

/-- An ended sampling task stays so, and submits nothing. -/
theorem Rest.step (hr : Rest s) (hi : Inv s) (h : Step s l s') :
    Rest s' ∧ s'.submitted = s.submitted := by
  have hidle := hr.idle hi
  obtain ⟨hstart, e, he⟩ := hr
  have off {x : Sampling ε} (hs : s.sampling = x) (hx : ∀ e, x ≠ .ended e) : False :=
    hx e (hs.symm.trans he)
  have cancelled : Rest (s.cancel .sampling) ∧ (s.cancel .sampling).submitted = s.submitted :=
    ⟨⟨hstart, e, (cancel_sampling_iff s .sampling (.inr (.inr ⟨e, rfl⟩))).mpr he⟩, rfl⟩
  cases h with
  | start h => exact absurd (hstart.symm.trans h) nofun
  | first h | timer h => exact (off h nofun).elim
  | endTask h => rcases h with h | h <;> exact (off h nofun).elim
  | submit c h | collectFail c _ h | collectCancel c h | again c _ _ _ _ h | leave c _ _ _ _ _ h =>
    exact absurd ((hidle c).symm.trans h) nofun
  | cancel c =>
    cases c with
    | start => exact ⟨⟨hstart, e, he⟩, rfl⟩
    | sampling => exact cancelled
  | stop => exact ⟨⟨cancelled.1.start, cancelled.1.sampling⟩, cancelled.2⟩
  | cancelStop => exact cancelled
  | thread | stopNone | cancelStopEnded | stopped | stopRaised => exact ⟨⟨hstart, e, he⟩, rfl⟩

theorem Joined.rest (h0 : Init (r.state 0)) (h : Joined r i n) : Rest (r.state i) := by
  have hstep := r.step_ok i h.lt
  obtain ⟨q, hq⟩ := h.waiting
  have ended {e : Ending ε} (he : (r.state i).sampling = .ended e) : Rest (r.state i) :=
    ⟨(Run.inv h0 h.lt.le).turn.born (by rw [he]; exact nofun), e, he⟩
  generalize r.state (i + 1) = s' at hstep
  rcases h.over_ with hl | ⟨e, hl⟩ <;> rw [hl] at hstep <;> cases hstep
  case stopNone _ h => exact absurd (h.symm.trans hq) nofun
  case stopped hend _ _ => exact ended hend
  case stopRaised h hend => exact ended hend

theorem Rest.stays (h0 : Init (r.state 0)) (h : Rest (r.state i)) (him : i ≤ m)
    (hm : m ≤ r.length) :
    Rest (r.state m) ∧ (r.state m).submitted = (r.state i).submitted := by
  have hstay := r.stays
    (P := fun s => Inv s ∧ Rest s ∧ s.submitted = (r.state i).submitted)
    (fun _ _ _ hst ⟨hi, hr, hs⟩ => by
      obtain ⟨hr', hs'⟩ := hr.step hi hst
      exact ⟨inv_step hi hst, hr', hs'.trans hs⟩) him hm ⟨Run.inv h0 (him.trans hm), h, rfl⟩
  exact hstay.2

theorem drained (r : Run (Step (ε := ε))) (h0 : Init (r.state 0)) : Drained r where
  ends i j c k e logged h := h.drained h0
  early i j c h hmove hc := h.cancelled h0 hmove hc
  stops i n h m him hm := by
    obtain ⟨hr, hs⟩ := (h.rest h0).stays h0 him hm
    have hi := Run.inv h0 hm
    refine ⟨fun k op hop => (hi.owned k op hop).resolve_right ?_, hs⟩
    rintro ⟨c, w, hd⟩
    exact absurd ((hr.idle hi c).symm.trans hd) nofun

end Runs

/-- **Cancellation never abandons a submitted write**, in `refresh` (and so after `stop`) and in
`finish_file_update`. -/
theorem writes_drained {δ α : Type} (r : Run (Step (ε := ε)))
    (q : Run (Verbose.Submission.Step (ε := δ) (α := α))) (hr : Init (r.state 0))
    (hq : Verbose.Submission.Init (q.state 0)) : Drained r ∧ Verbose.Submission.Drained q :=
  ⟨drained r hr, Verbose.Submission.drained q hq⟩

/-- An update is cancelled while it works, and then fails outside `Exception`. -/
def overridden : Run (Verbose.Submission.Step (ε := Unit) (α := Unit)) :=
  let r := Run.start Verbose.Submission.Step
    { operation := .queued, waiter := ⟨false, false⟩, ended := none } .thread
  let r := r.snoc (.thread _ _ .begin)
  let r := r.snoc (.cancel _ rfl)
  let r := r.snoc (.again _ ⟨false, true⟩ rfl (.caught ⟨true, false⟩ rfl nofun))
  let r := r.snoc (.thread _ _ (.finish (.error (.base ()))))
  let r := r.snoc (.thread _ _ (.complete (.error (.base ()))))
  r.snoc (.leave _ (.error (.base ())) true rfl (.woken ⟨false, true⟩ _ rfl))

/-- The cancellation does not replace an exception outside `Exception`. -/
theorem base_exception_overrides :
    ¬ ∀ q : Run (Verbose.Submission.Step (ε := Unit) (α := Unit)),
      Verbose.Submission.Init (q.state 0) → ∀ j e, j < q.length → q.label j = .ended e →
        (∃ m, m < j ∧ q.label m = .cancel) → ∃ cause, e = .cancelled cause := by
  intro h
  obtain ⟨cause, hc⟩ := h overridden ⟨rfl, rfl, rfl⟩ 5 (.raised (.base ())) (by decide) rfl
    ⟨1, by decide, rfl⟩
  exact absurd hc nofun

/-- The sampler is stopped while its second publication works; the publication then fails. -/
def stoppedWhileWriting : Run (Step (ε := Unit)) :=
  let r := Run.start Step
    { start := .new, sampling := .none, refresh := fun _ => .idle, task := false
      publications := fun _ => none, submitted := 0, stops := fun _ => .idle } (.inner .start)
  let r := r.snoc (.start _ rfl)
  let r := r.snoc (.submit _ .start rfl)
  let r := r.snoc (.thread _ 0 _ _ rfl .begin)
  let r := r.snoc (.thread _ 0 _ _ rfl (.finish (.ok ())))
  let r := r.snoc (.thread _ 0 _ _ rfl (.complete (.ok ())))
  let r := r.snoc (.leave _ .start 0 ⟨false, false⟩ _ (.ok ()) false rfl rfl (.woken _ _ rfl))
  let r := r.snoc (.first _ rfl)
  let r := r.snoc (.timer _ rfl)
  let r := r.snoc (.submit _ .sampling rfl)
  let r := r.snoc (.thread _ 1 _ _ rfl .begin)
  let r := r.snoc (.stop _ 0 rfl rfl)
  let r := r.snoc (.again _ .sampling 1 ⟨true, false⟩ ⟨false, true⟩ .running rfl rfl
    (.caught _ rfl nofun))
  let r := r.snoc (.thread _ 1 _ _ rfl (.finish (.error (.osError ()))))
  let r := r.snoc (.thread _ 1 _ _ rfl (.complete (.error (.osError ()))))
  let r := r.snoc (.leave _ .sampling 1 ⟨false, true⟩ _ (.error (.osError ())) true rfl rfl
    (.woken _ _ rfl))
  r.snoc (.stopped _ 0 false .cancelled rfl rfl (.inr (.inl rfl)))

theorem writes_drained_stoppedWhileWriting :
    stoppedWhileWriting.label 14 = .ended .sampling .cancelled (some (.osError ())) ∧
      stoppedWhileWriting.label 15 = .stopped 0 ∧ Drained stoppedWhileWriting ∧
      Verbose.Submission.Drained overridden := by
  have h := writes_drained stoppedWhileWriting overridden
    ⟨rfl, rfl, fun _ => rfl, rfl, fun _ => rfl, fun _ => rfl⟩ ⟨rfl, rfl, rfl⟩
  exact ⟨rfl, rfl, h.1, h.2⟩

end LclFastapi.Health
