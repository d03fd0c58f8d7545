import LclFastapi.Runtime.Deadlines
import Mathlib.Tactic.IntervalCases

/-!
# Expired workers and failed terminations (`ControllerLog.background_tick`)

A tick takes every expired worker out of the tables before it kills the first one, and
`AccessDenied` from one termination ends the loop. The workers from the failed one on are then
neither signalled nor armed.

* `PC.chosen` is the rest of the loop: `fired_of_signal` and `fired_step` say that a signalled
  worker is not in it any more, `selected_of_chosen` that it holds selected workers only.
* **`notForgotten_iff`**: a tick forgets no expired worker exactly when it ends without
  `AccessDenied`, or every live worker from the failed one on is still in the other table.
-/

namespace LclFastapi.Runtime.Controller

open Lib (Dict Identity Processes Run)
open Background (JournalRecord)

variable {graceful : ℚ} {sid : Value} {s s' : State} {l : Label} {w : Identity}

/-! ## Statements -/

/-- `w` is in `retirements` or in `background.stopping`. -/
def Armed (w : Identity) (s : State) : Prop :=
  s.retirements.get? w ≠ none ∨ ∃ pid r, s.stopping.get? pid = some r ∧ r.identity = w

/-- The end of a tick. -/
def Label.Ends (l : Label) : Prop := l = .ret ∨ l = .raise ∨ l = .denied

/-- The tick that begins at step `a` returns or raises at step `c`. -/
structure WholeTick (r : Run (Step graceful sid)) (a c : Nat) : Prop where
  lt : a < c
  le : c < r.length
  begins : ∃ force, r.label a = .tick force
  ends : (r.label c).Ends
  first : ∀ m, a < m → m < c → ¬ (r.label m).Ends

/-- Every worker the tick has selected, if it is live in the end, has been sent the kill or is
still armed. -/
def NotForgotten (r : Run (Step graceful sid)) (a c : Nat) : Prop :=
  ∀ k w, a < k → k < c → r.label k = .select w → (r.state (c + 1)).os.live w = true →
    (∃ m, a < m ∧ m < c ∧ r.label m = .signal w) ∨ Armed w (r.state (c + 1))

/-! ## The kill loop -/

/-- Past its selection, a tick has each worker at most once. -/
def PC.Single : PC → Prop
  | .logging _ expired => expired.Nodup
  | .killing todo _ => todo.Nodup
  | .signalling id todo _ => (id :: todo).Nodup
  | _ => True

theorem single_step (h : Step graceful sid s l s') (hs : s.pc.Single) : s'.pc.Single := by
  cases h
  case compose expired events hpc => exact Dict.nodup_distinct expired
  case os | time | publish => exact hs
  case log events expired ok hpc hok =>
    rw [hpc] at hs
    exact hs
  case lookup v todo failed p hpc htable hcreated =>
    rw [hpc] at hs
    show (⟨v.pid, p.created⟩ :: todo : List Identity).Nodup
    rw [hcreated]
    exact hs
  case lookupOther | signal | gone =>
    rw [‹s.pc = _›] at hs
    exact (List.nodup_cons.mp hs).2
  all_goals exact trivial

/-- In the kill loop, and done with `w`. -/
def PC.Fired (w : Identity) (pc : PC) : Prop :=
  match pc with
  | .killing todo _ => w ∉ todo
  | .signalling id todo _ => w ∉ id :: todo
  | _ => False

theorem fired_of_signal (h : Step graceful sid s (.signal w) s') (hs : s.pc.Single) :
    s'.pc.Fired w := by
  cases h with
  | signal _ todo failed p hpc =>
    rw [hpc] at hs
    exact (List.nodup_cons.mp hs).1

theorem fired_step (h : Step graceful sid s l s') (hs : s.pc.Fired w) :
    s'.pc.Fired w ∨ l.Ends := by
  cases h
  case os | time | publish => exact .inl hs
  case ret => exact .inr (.inl rfl)
  case raise => exact .inr (.inr (.inl rfl))
  case denied => exact .inr (.inr (.inr rfl))
  case lookup v todo failed p hpc htable hcreated =>
    rw [hpc] at hs
    refine .inl ?_
    show w ∉ (⟨v.pid, p.created⟩ :: todo : List Identity)
    rw [hcreated]
    exact hs
  case lookupOther | signal | gone =>
    rw [‹s.pc = _›] at hs
    exact .inl fun hm => hs (.tail _ hm)
  all_goals
    rw [‹s.pc = _›] at hs
    exact hs.elim

theorem PC.Fired.not_chosen {pc : PC} (h : pc.Fired w) : w ∉ pc.chosen := by
  cases pc <;> first | exact h | exact h.elim

theorem PC.Doomed.chosen {pc : PC} (h : pc.Doomed w) : w ∈ pc.chosen := by
  cases pc <;> first | exact h | exact h.elim | exact List.mem_cons.mpr h

/-! ## Selected workers have existed -/

/-- What a tick has selected, with the worker whose deadline it is about to compare. -/
def PC.examined : PC → List Identity
  | .expireDue _ _ record _ expired _ => record.identity :: expired
  | .retireDue _ w _ _ expired _ => w :: expired
  | pc => pc.chosen

def Examined (s : State) : Prop := ∀ w, w ∈ s.pc.examined → w ∈ s.os.seen

theorem PC.examined_of_chosen {pc : PC} (h : w ∈ pc.chosen) : w ∈ pc.examined := by
  cases pc <;> first | exact h | exact .tail _ h

theorem examined_step (h : Step graceful sid s l s') (hs : Examined s) : Examined s' := by
  intro u hu
  cases h
  case os q hq => exact hq.seen_mono (hs u hu)
  case time | publish => exact hs u hu
  case expireLive hpc hlive =>
    rw [Examined, hpc] at hs
    rcases List.mem_cons.mp hu with rfl | hu
    · exact Processes.seen_of_live hlive
    · exact hs u hu
  case retireLive hpc hlive =>
    rw [Examined, hpc] at hs
    rcases List.mem_cons.mp hu with rfl | hu
    · exact Processes.seen_of_live hlive
    · exact hs u hu
  case expireSelect | retireSelect =>
    rw [Examined, ‹s.pc = _›] at hs
    rcases List.mem_append.mp hu with hu | hu
    · exact hs u (.tail _ hu)
    · exact hs u (List.mem_singleton.mp hu ▸ .head _)
  case compose hpc =>
    rw [Examined, hpc] at hs
    exact hs u (Dict.mem_distinct.mp hu)
  case lookup v todo failed p hpc htable hcreated =>
    rw [Examined, hpc] at hs
    refine hs u ?_
    rw [hcreated] at hu
    exact hu
  case expireKeep | retireKeep | lookupOther | signal | gone =>
    rw [Examined, ‹s.pc = _›] at hs
    exact hs u (.tail _ hu)
  case expireDead | expired | retireDead | log =>
    rw [Examined, ‹s.pc = _›] at hs
    exact hs u hu
  all_goals exact absurd hu List.not_mem_nil

/-! ## Whole ticks -/

theorem PC.Announces.selecting {pc : PC} (h : pc.Announces w) : pc.Selecting := by
  cases pc <;> first | exact trivial | exact h.elim

variable {r : Run (Step graceful sid)} {a c k : Nat}

theorem examined_run (h0 : Init (r.state 0)) {i : Nat} (hi : i ≤ r.length) :
    Examined (r.state i) := by
  refine r.invariant ?_ (fun _ _ _ h hs => examined_step h hs) i hi
  intro w hw
  rw [h0.pc] at hw
  exact absurd hw List.not_mem_nil

theorem single_run (h0 : Init (r.state 0)) {i : Nat} (hi : i ≤ r.length) :
    (r.state i).pc.Single := by
  refine r.invariant (P := fun s => s.pc.Single) ?_ (fun _ _ _ h hs => single_step h hs) i hi
  show (r.state 0).pc.Single
  rw [h0.pc]
  exact trivial

/-- What becomes of a selected worker by the end of the tick: the signal, its death, or a place in
the rest of the loop that `AccessDenied` ends. -/
theorem WholeTick.fate (ht : WholeTick r a c) (h0 : Init (r.state 0)) (hak : a < k) (hkc : k < c)
    (hl : r.label k = .select w) :
    (∃ m, a < m ∧ m < c ∧ r.label m = .signal w) ∨ (r.state (c + 1)).os.live w = false ∨
      (r.label c = .denied ∧ w ∈ (r.state c).pc.chosen) := by
  have hselect := r.step_ok k (hkc.trans ht.le)
  rw [hl] at hselect
  rcases r.holds_unless (P := fun s => s.pc.Announces w)
      (E := fun s l => s.pc.Announces w ∧ ∃ events ok, l = .log events ok)
      (fun _ _ _ h hs => (announces_step h hs).imp_right fun he => ⟨hs, he⟩) hkc ht.le.le
      (announces_of_select hselect) with hs | ⟨b, hkb, hbc, hann, events, ok, hlog⟩
  · exact absurd hs.selecting (not_selecting_of_end (r.step_ok c ht.le) ht.ends)
  have hstep := r.step_ok b (hbc.trans ht.le)
  rw [hlog] at hstep
  rcases r.holds_unless (P := fun s => s.pc.Doomed w)
      (E := fun s l => s.pc.Doomed w ∧ (l = .signal w ∨ l = .denied ∨ s.os.live w = false))
      (fun _ _ _ h hs => (doomed_step h hs).imp_right fun he => ⟨hs, he⟩) hbc ht.le.le
      (doomed_of_log hstep hann).2 with hs | ⟨m, hbm, hmc, hdoomed, hm⟩
  · rcases ht.ends with he | he | he
    · exact absurd hs (not_doomed_of_end (he ▸ r.step_ok c ht.le) (.inl rfl))
    · exact absurd hs (not_doomed_of_end (he ▸ r.step_ok c ht.le) (.inr rfl))
    · exact .inr (.inr ⟨he, hs.chosen⟩)
  · have ham : a < m := by omega
    rcases hm with hm | hm | hm
    · exact .inl ⟨m, ham, hmc, hm⟩
    · exact absurd (.inr (.inr hm)) (ht.first m ham hmc)
    · refine .inr (.inl ?_)
      have hseen := examined_run h0 (hmc.trans ht.le).le w (PC.examined_of_chosen hdoomed.chosen)
      exact dead_run hseen hm (hmc.le.trans (Nat.le_succ c)) ht.le

/-- The signal takes a worker out of the rest of the loop, to the end of the tick. -/
theorem WholeTick.not_signalled (ht : WholeTick r a c) (h0 : Init (r.state 0))
    (hw : w ∈ (r.state c).pc.chosen) {m : Nat} (ham : a < m) (hmc : m < c) :
    r.label m ≠ .signal w := by
  intro hl
  have hstep := r.step_ok m (hmc.trans ht.le)
  rw [hl] at hstep
  rcases r.holds_unless (P := fun s => s.pc.Fired w) (E := fun _ l => l.Ends)
      (fun _ _ _ h hs => fired_step h hs) hmc ht.le.le
      (fired_of_signal hstep (single_run h0 (hmc.trans ht.le).le)) with hs | ⟨n, hmn, hnc, hn⟩
  · exact hs.not_chosen hw
  · exact ht.first n (by omega) hnc hn

/-- What the rest of the loop holds was selected in this tick. -/
theorem WholeTick.selected (ht : WholeTick r a c) (h0 : Init (r.state 0))
    (hw : w ∈ (r.state c).pc.chosen) : ∃ k, a < k ∧ k < c ∧ r.label k = .select w := by
  obtain ⟨force, hbegin⟩ := ht.begins
  obtain ⟨k, hkc, hk, hno⟩ := selected_of_chosen h0 ht.le.le hw
  refine ⟨k, ?_, hkc, hk⟩
  rcases Nat.lt_trichotomy k a with hka | rfl | hak
  · exact absurd hbegin (hno a hka ht.lt force)
  · rw [hk] at hbegin
    cases hbegin
  · exact hak

theorem denied_step (h : Step graceful sid s .denied s') :
    s'.os = s.os ∧ s'.retirements = s.retirements ∧ s'.stopping = s.stopping := by
  cases h with
  | denied => exact ⟨rfl, rfl, rfl⟩

/-- **A tick forgets no expired worker** exactly when it ends without `AccessDenied`, or each live
worker from the failed one on is still in a table. -/
theorem notForgotten_iff (h0 : Init (r.state 0)) (ht : WholeTick r a c) :
    NotForgotten r a c ↔ (r.label c = .denied → ∀ w, w ∈ (r.state c).pc.chosen →
      (r.state c).os.live w = true → Armed w (r.state c)) := by
  have hdenied : r.label c = .denied → (r.state (c + 1)).os = (r.state c).os ∧
      ∀ w, Armed w (r.state (c + 1)) ↔ Armed w (r.state c) := by
    intro hl
    obtain ⟨hos, hretirements, hstopping⟩ := denied_step (hl ▸ r.step_ok c ht.le)
    refine ⟨hos, fun w => ?_⟩
    unfold Armed
    rw [hretirements, hstopping]
  constructor
  · intro hforget hl w hw hlive
    obtain ⟨hos, harmed⟩ := hdenied hl
    obtain ⟨k, hak, hkc, hk⟩ := ht.selected h0 hw
    rcases hforget k w hak hkc hk (hos ▸ hlive) with ⟨m, ham, hmc, hm⟩ | ha
    · exact absurd hm (ht.not_signalled h0 hw ham hmc)
    · exact (harmed w).mp ha
  · intro hcond k w hak hkc hk hlive
    rcases ht.fate h0 hak hkc hk with hs | hdead | ⟨hl, hw⟩
    · exact .inl hs
    · rw [hdead] at hlive
      cases hlive
    · obtain ⟨hos, harmed⟩ := hdenied hl
      exact .inr ((harmed w).mpr (hcond hl w hw (hos ▸ hlive)))

theorem notForgotten_stuckWorker : WholeTick stuckWorker 4 13 ∧ NotForgotten stuckWorker 4 13 := by
  have ht : WholeTick stuckWorker 4 13 := by
    refine ⟨by decide, by decide, ⟨false, rfl⟩, .inr (.inl rfl), fun m ham hmc => ?_⟩
    interval_cases m <;> nofun
  exact ⟨ht, (notForgotten_iff ⟨rfl, rfl, rfl⟩ ht).mpr nofun⟩

/-- Two armed workers expire, and the termination of the first is denied. -/
def deniedTick : Run (Step 30 (.str "start")) :=
  let v : Identity := ⟨7, 0⟩
  let w : Identity := ⟨8, 0⟩
  let r := Run.start (Step 30 (.str "start"))
    { os := .ofList [v, w], clock := 0, wall := 0
      observations := fun _ => .absent, stopping := .empty, retirements := .empty, pc := .idle }
    .environment
  let r := r.snoc (.retireOne _ v rfl (.inr (.inl rfl)))
  let r := r.snoc (.arm _ v [] rfl)
  let r := r.snoc (.retired _ rfl)
  let r := r.snoc (.retireOne _ w rfl (.inl rfl))
  let r := r.snoc (.arm _ w [] rfl)
  let r := r.snoc (.retired _ rfl)
  let r := r.snoc (.time _ 30 0 (by show (0 : ℚ) ≤ 30; decide))
  let r := r.snoc (.tick _ false rfl)
  let r := r.snoc (.read _ false [] rfl)
  let r := r.snoc (.expired _ false [] [] rfl)
  let r := r.snoc (.retireLive _ false v (0 + 30) [(w, 0 + 30)] [] [] rfl rfl)
  let r := r.snoc (.retireSelect _ false v (0 + 30) [(w, 0 + 30)] [] [] rfl
    (.inr (zero_add (30 : ℚ)).le))
  let r := r.snoc (.retireLive _ false w (0 + 30) [] [v] [] rfl rfl)
  let r := r.snoc (.retireSelect _ false w (0 + 30) [] [v] [] rfl (.inr (zero_add (30 : ℚ)).le))
  let r := r.snoc (.compose _ false [v, w] [] rfl)
  let r := r.snoc (.log _ [timeoutLine v, timeoutLine w] [v, w] true rfl (fun _ => rfl))
  r.snoc (.denied _ (.inl ⟨v, [w], false, rfl⟩))

/-- **A denied termination makes the tick forget** the expired workers after it. -/
theorem denied_forgets :
    ¬ ∀ r : Run (Step 30 (.str "start")), Init (r.state 0) → ∀ a c, WholeTick r a c →
      NotForgotten r a c := by
  intro h
  have ht : WholeTick deniedTick 7 16 := by
    refine ⟨by decide, by decide, ⟨false, rfl⟩, .inr (.inr rfl), fun m ham hmc => ?_⟩
    interval_cases m <;> nofun
  rcases h deniedTick ⟨rfl, rfl, rfl⟩ 7 16 ht 13 ⟨8, 0⟩ (by decide) (by decide) rfl rfl with
    ⟨m, ham, hmc, hm⟩ | harmed | ⟨pid, record, hget, -⟩
  · interval_cases m <;> cases hm
  · exact harmed rfl
  · cases hget

end LclFastapi.Runtime.Controller
