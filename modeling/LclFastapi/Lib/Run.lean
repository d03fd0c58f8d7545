import Mathlib.Order.Basic
import Mathlib.Order.Interval.Set.Nat

/-!
# Runs of a labelled transition system

A system is a relation `step : σ → α → σ → Prop`: from a state, one labelled atomic action of one
of its parties leads to another state. `Reachable` collects the states of all its interleavings;
`Run` keeps one interleaving as an indexed sequence, for statements that relate an earlier and a
later moment (a call and its return, a cause and its effect).

* `Reachable.invariant`: an initial property every step preserves holds of every reachable state.
* `Run.invariant`, `Run.invariant_of`: the same along one run, the second for runs whose steps all
  meet a condition.
* `Run.stays`, `Run.holds_unless`: what every step keeps holds from then on; what it keeps unless
  an event happens holds until the event.
* `Run.caused`: what only an event brings about was brought about by one.
* `Run.trace`, `Run.trace_invariant`: what the steps so far have shown, and the invariant rule for a
  state together with it.
* `Reachable.run`: a reachable state as the last one of a run.
* `Since`: an event and what has held since, moment by moment.
* `Run.count_rank`: steps that each lower a rank are at most as many as the rank they start from.
* `Run.map`, `Run.take`, `Run.within`: the run of one part of a larger system, the first steps of a
  run, a run with an invariant of its states at hand in every rule.
* `Run.flag_iff`: a flag is up exactly when it was, or an event has raised it since.
-/

namespace LclFastapi.Lib

variable {σ α : Type*} {init : σ → Prop} {step : σ → α → σ → Prop}

/-! ## Reachable states -/

/-- The states of all interleavings of `step` from an initial state. -/
inductive Reachable (init : σ → Prop) (step : σ → α → σ → Prop) : σ → Prop
  | start {s : σ} (h : init s) : Reachable init step s
  | next {s t : σ} {a : α} (hr : Reachable init step s) (hs : step s a t) : Reachable init step t

/-- **The invariant rule.** -/
theorem Reachable.invariant {P : σ → Prop} (h0 : ∀ s, init s → P s)
    (hs : ∀ s a t, step s a t → P s → P t) {s : σ} (hr : Reachable init step s) : P s := by
  induction hr with
  | start h => exact h0 _ h
  | next _ hst ih => exact hs _ _ _ hst ih

/-! ## Indexed runs -/

/-- A finite run: `length` labelled steps through `state 0, …, state length`. -/
structure Run (step : σ → α → σ → Prop) where
  length : Nat
  state : Nat → σ
  label : Nat → α
  step_ok : ∀ i, i < length → step (state i) (label i) (state (i + 1))

namespace Run

variable (r : Run step)

/-- **The invariant rule along one run**, for steps that meet a condition. -/
theorem invariant_of {P : σ → Prop} {C : σ → α → Prop} (h0 : P (r.state 0))
    (hC : ∀ i, i < r.length → C (r.state i) (r.label i))
    (hs : ∀ s a t, step s a t → C s a → P s → P t) : ∀ i, i ≤ r.length → P (r.state i)
  | 0, _ => h0
  | i + 1, hi =>
    hs _ _ _ (r.step_ok i hi) (hC i hi) (invariant_of h0 hC hs i (Nat.le_of_succ_le hi))

theorem invariant {P : σ → Prop} (h0 : P (r.state 0)) (hs : ∀ s a t, step s a t → P s → P t) :
    ∀ i, i ≤ r.length → P (r.state i) :=
  r.invariant_of (C := fun _ _ => True) h0 (fun _ _ => trivial) fun s a t h _ => hs s a t h

/-- What every step keeps holds from then on. -/
theorem stays {P : σ → Prop} (hs : ∀ s a t, step s a t → P s → P t) {i j : Nat} (hij : i ≤ j)
    (hj : j ≤ r.length) (hi : P (r.state i)) : P (r.state j) := by
  induction j, hij using Nat.le_induction with
  | base => exact hi
  | succ j hij ih => exact hs _ _ _ (r.step_ok j hj) (ih (Nat.le_of_succ_le hj))

/-- What only an event brings about was brought about by one. -/
theorem caused {P : σ → Prop} {E : σ → α → Prop} (hs : ∀ s a t, step s a t → P t → P s ∨ E s a)
    (h0 : ¬ P (r.state 0)) {i : Nat} (hi : i ≤ r.length) (hp : P (r.state i)) :
    ∃ k, k < i ∧ E (r.state k) (r.label k) := by
  induction i with
  | zero => exact absurd hp h0
  | succ i ih =>
    rcases hs _ _ _ (r.step_ok i hi) hp with hp | he
    · obtain ⟨k, hk, he⟩ := ih (Nat.le_of_succ_le hi) hp
      exact ⟨k, Nat.lt_succ_of_lt hk, he⟩
    · exact ⟨i, Nat.lt_succ_self i, he⟩

/-- **The unless rule**: what every step keeps unless `E` happens holds until `E` happens. -/
theorem holds_unless {P : σ → Prop} {E : σ → α → Prop}
    (hs : ∀ s a t, step s a t → P s → P t ∨ E s a) {i j : Nat} (hij : i ≤ j) (hj : j ≤ r.length)
    (hi : P (r.state i)) :
    P (r.state j) ∨ ∃ k, i ≤ k ∧ k < j ∧ E (r.state k) (r.label k) := by
  induction j, hij using Nat.le_induction with
  | base => exact .inl hi
  | succ j hij ih =>
    rcases ih (Nat.le_of_succ_le hj) with hp | ⟨k, hik, hkj, he⟩
    · rcases hs _ _ _ (r.step_ok j hj) hp with h | h
      · exact .inl h
      · exact .inr ⟨j, hij, Nat.lt_succ_self j, h⟩
    · exact .inr ⟨k, hik, Nat.lt_succ_of_lt hkj, he⟩

/-- A flag that an event raises and every other step keeps, over a stretch of the run. -/
theorem flag_iff {f : Nat → Prop} {E : Nat → Prop} {i j : Nat} (hij : i ≤ j)
    (hs : ∀ m, i ≤ m → m < j → (f (m + 1) ↔ f m ∨ E m)) :
    f j ↔ f i ∨ ∃ m, i ≤ m ∧ m < j ∧ E m := by
  induction j, hij using Nat.le_induction with
  | base => exact ⟨.inl, fun h => h.resolve_right fun ⟨m, him, hmi, _⟩ => by omega⟩
  | succ j hij ih =>
    rw [hs j hij (Nat.lt_succ_self j), ih fun m him hmj => hs m him (Nat.lt_succ_of_lt hmj)]
    constructor
    · rintro ((hi | ⟨m, him, hmj, he⟩) | he)
      · exact .inl hi
      · exact .inr ⟨m, him, Nat.lt_succ_of_lt hmj, he⟩
      · exact .inr ⟨j, hij, Nat.lt_succ_self j, he⟩
    · rintro (hi | ⟨m, him, hmj, he⟩)
      · exact .inl (.inl hi)
      · rcases Nat.lt_succ_iff_lt_or_eq.mp hmj with hlt | rfl
        · exact .inl (.inr ⟨m, him, hlt, he⟩)
        · exact .inr he

/-- What the labels of the steps before `i` show, in order. -/
def trace {β : Type*} (f : α → Option β) (i : Nat) : List β :=
  (List.range i).filterMap fun k => f (r.label k)

@[simp] theorem trace_zero {β : Type*} (f : α → Option β) : r.trace f 0 = [] := rfl

theorem trace_succ {β : Type*} (f : α → Option β) (i : Nat) :
    r.trace f (i + 1) = r.trace f i ++ (f (r.label i)).toList := by
  unfold trace
  rw [List.range_succ, List.filterMap_append]
  cases h : f (r.label i) <;> simp [h]

/-- **The invariant rule for a state and what was shown on the way to it.** -/
theorem trace_invariant {β : Type*} {f : α → Option β} {P : σ → List β → Prop} {C : σ → α → Prop}
    (h0 : P (r.state 0) []) (hC : ∀ i, i < r.length → C (r.state i) (r.label i))
    (hs : ∀ s a t h, step s a t → C s a → P s h → P t (h ++ (f a).toList)) :
    ∀ i, i ≤ r.length → P (r.state i) (r.trace f i) := by
  intro i hi
  induction i with
  | zero => exact h0
  | succ i ih =>
    rw [trace_succ]
    exact hs _ _ _ _ (r.step_ok i hi) (hC i hi) (ih (Nat.le_of_succ_le hi))

/-- How many of the steps from `i` to `j` have a label of one kind. -/
def count (p : α → Bool) (i j : Nat) : Nat :=
  (List.range' i (j - i)).countP fun k => p (r.label k)

theorem count_self (p : α → Bool) (i : Nat) : r.count p i i = 0 := by
  simp [count]

theorem count_succ (p : α → Bool) {i j : Nat} (hij : i ≤ j) :
    r.count p i (j + 1) = r.count p i j + if p (r.label j) then 1 else 0 := by
  unfold count
  rw [Nat.succ_sub hij, Nat.succ_eq_add_one, List.range'_concat, List.countP_append,
    List.countP_singleton, Nat.one_mul, Nat.add_sub_cancel' hij]

/-- **The ranking rule**, over a stretch of the run. -/
theorem count_rank {p : α → Bool} {f : σ → Nat} {i j : Nat} (hij : i ≤ j) (hj : j ≤ r.length)
    (hs : ∀ k, i ≤ k → k < j →
      f (r.state (k + 1)) + (if p (r.label k) then 1 else 0) ≤ f (r.state k)) :
    f (r.state j) + r.count p i j ≤ f (r.state i) := by
  induction j, hij using Nat.le_induction with
  | base => rw [count_self, Nat.add_zero]
  | succ j hij ih =>
    have hstep := hs j hij (Nat.lt_succ_self j)
    have hprev := ih (Nat.le_of_succ_le hj) fun k hik hkj => hs k hik (Nat.lt_succ_of_lt hkj)
    rw [count_succ _ _ hij]
    omega

/-- The run of a part: a system each of whose steps is a step of the part. -/
def map {τ : Type*} {step' : τ → α → τ → Prop} (f : σ → τ)
    (hs : ∀ s a t, step s a t → step' (f s) a (f t)) : Run step' where
  length := r.length
  state i := f (r.state i)
  label := r.label
  step_ok i hi := hs _ _ _ (r.step_ok i hi)

/-- The run of a system whose states all meet an invariant. -/
def within {I : σ → Prop} (hI : ∀ i, i ≤ r.length → I (r.state i)) :
    Run fun s a t => I s ∧ step s a t where
  length := r.length
  state := r.state
  label := r.label
  step_ok i hi := ⟨hI i hi.le, r.step_ok i hi⟩

/-- The first steps of a run. -/
def take (i : Nat) (hi : i ≤ r.length) : Run step where
  length := i
  state := r.state
  label := r.label
  step_ok k hk := r.step_ok k (hk.trans_le hi)

/-- The run that takes no step; `a` fills its unused labels. -/
def start (step : σ → α → σ → Prop) (s : σ) (a : α) : Run step where
  length := 0
  state _ := s
  label _ := a
  step_ok i hi := absurd hi (Nat.not_lt_zero i)

/-- One more step at the end. -/
def snoc {a : α} {t : σ} (h : step (r.state r.length) a t) : Run step where
  length := r.length + 1
  state i := if i ≤ r.length then r.state i else t
  label i := if i < r.length then r.label i else a
  step_ok i hi := by
    rcases Nat.lt_succ_iff_lt_or_eq.mp hi with hlt | rfl
    · simpa [hlt, hlt.le, Nat.succ_le_of_lt hlt] using r.step_ok i hlt
    · simpa using h

end Run

/-! ## Since -/

/-- `e` has happened before the moment `i`, and `q` holds of every moment in between. -/
def Since (e q : Nat → Prop) (i : Nat) : Prop := ∃ k, k < i ∧ e k ∧ ∀ m, k < m → m < i → q m

namespace Since

variable {e q : Nat → Prop} {i : Nat}

theorem now (h : e i) : Since e q (i + 1) :=
  ⟨i, Nat.lt_succ_self i, h, fun _ him hmi => absurd him (Nat.not_lt.mpr (Nat.le_of_lt_succ hmi))⟩

theorem succ (h : Since e q i) (hq : q i) : Since e q (i + 1) := by
  obtain ⟨k, hk, he, hm⟩ := h
  refine ⟨k, Nat.lt_succ_of_lt hk, he, fun m hkm hmi => ?_⟩
  rcases Nat.lt_succ_iff_lt_or_eq.mp hmi with hlt | rfl
  · exact hm m hkm hlt
  · exact hq

end Since

/-- Every reachable state is where a run from an initial state ends. -/
theorem Reachable.run {s : σ} (hr : Reachable init step s) (a : α) :
    ∃ r : Run step, init (r.state 0) ∧ r.state r.length = s := by
  induction hr with
  | @start s h => exact ⟨Run.start step s a, h, rfl⟩
  | next _ hst ih =>
    obtain ⟨r, h0, rfl⟩ := ih
    exact ⟨r.snoc hst, by simpa [Run.snoc] using h0, by simp [Run.snoc]⟩

end LclFastapi.Lib
