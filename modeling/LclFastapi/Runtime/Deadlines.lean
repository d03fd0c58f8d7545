import LclFastapi.Lib.Message
import LclFastapi.Runtime.Controller

/-!
# Retirement deadlines are met and not misdirected

A worker armed once stays in `retirements` under its first deadline until a tick selects it or
finds it dead (`armed_step`). A tick that begins past the deadline takes it into its snapshot, and
cannot reach its log with the entry unprocessed (`awaiting_step`). What a tick selects, it
announces in its one batch and then tries to kill (`announces_step`, `doomed_step`). The lines of a
batch are read back by level and text (`terminated?`).
-/

namespace LclFastapi.Runtime.Controller

open Lib (Dict Identity Processes Run)
open Background (JournalRecord)

variable {graceful : ℚ} {sid : Value} {s s' : State} {l : Label} {w : Identity} {deadline : ℚ}

/-! ## What one step can do -/

/-- A deadline is overwritten by nothing: selection and death remove it. -/
theorem armed_step (h : Step graceful sid s l s') (hw : s.retirements.get? w = some deadline) :
    s'.retirements.get? w = some deadline ∨ l = .select w ∨ l = .drop w := by
  cases h
  case arm v todo hpc =>
    refine .inl ?_
    show (s.retirements.setdefault v _).get? w = some deadline
    rw [Dict.get?_setdefault]
    split
    · rename_i hv
      rw [← hv, hw]
      rfl
    · exact hw
  case retireSelect force v d todo expired events hpc hdue =>
    by_cases hv : w = v
    · exact .inr (.inl (by rw [hv]))
    · exact .inl (by simpa [Dict.get?_erase, hv] using hw)
  case retireDead force v d todo expired events hpc hdead =>
    by_cases hv : w = v
    · exact .inr (.inr (by rw [hv]))
    · exact .inl (by simpa [Dict.get?_erase, hv] using hw)
  all_goals exact .inl hw

/-- Only `setdefault` adds a worker. -/
theorem unarmed_step (h : Step graceful sid s l s') (hw : s.retirements.get? w = none) :
    s'.retirements.get? w = none ∨ l = .arm w := by
  cases h
  case arm v todo hpc =>
    by_cases hv : w = v
    · exact .inr (by rw [hv])
    · exact .inl (by simpa [Dict.get?_setdefault, hv] using hw)
  case retireSelect | retireDead => exact .inl (by simp [Dict.get?_erase, hw])
  all_goals exact .inl hw

/-- A tick has begun with `w` armed and due, and has not processed its entry. -/
def Awaiting (w : Identity) (deadline : ℚ) (s : State) : Prop :=
  s.retirements.get? w = some deadline ∧ deadline ≤ s.clock ∧
    match s.pc with
    | .reading _ | .expiring .. | .expireDue .. => True
    | .retiring _ todo _ _ => (w, deadline) ∈ todo
    | .retireDue _ v d todo _ _ => (w, deadline) = (v, d) ∨ (w, deadline) ∈ todo
    | _ => False

theorem awaiting_step (h : Step graceful sid s l s') (ha : Awaiting w deadline s) :
    Awaiting w deadline s' ∨ l = .select w ∨ l = .drop w := by
  obtain ⟨hw, hclock, hat⟩ := ha
  have harmed := armed_step h hw
  cases h
  case os | publish => exact .inl ⟨hw, hclock, hat⟩
  case time clock wall hmono => exact .inl ⟨hw, hclock.trans hmono, hat⟩
  case expired force expired events hpc => exact .inl ⟨hw, hclock, Dict.mem_entries.mpr hw⟩
  case retireLive force v d todo expired events hpc hlive =>
    rw [hpc] at hat
    exact .inl ⟨hw, hclock, List.mem_cons.mp hat⟩
  case retireDead force v d todo expired events hpc hdead =>
    rw [hpc] at hat
    rcases List.mem_cons.mp hat with he | hm
    · exact .inr (.inr (by rw [(Prod.mk.inj he).1]))
    · exact harmed.imp_left fun hw' => ⟨hw', hclock, hm⟩
  case retireSelect force v d todo expired events hpc hdue =>
    rw [hpc] at hat
    rcases hat with he | hm
    · exact .inr (.inl (by rw [(Prod.mk.inj he).1]))
    · exact harmed.imp_left fun hw' => ⟨hw', hclock, hm⟩
  case retireKeep v d todo expired events hpc hdue =>
    rw [hpc] at hat
    rcases hat with he | hm
    · rw [(Prod.mk.inj he).2] at hclock
      exact absurd hdue (not_lt.mpr hclock)
    · exact .inl ⟨hw, hclock, hm⟩
  case compose force expired events hpc =>
    rw [hpc] at hat
    exact absurd hat List.not_mem_nil
  case denied hpc =>
    rcases hpc with ⟨v, todo, failed, hpc⟩ | ⟨id, todo, failed, hpc⟩ <;> rw [hpc] at hat <;>
      exact hat.elim
  all_goals first
    | exact .inl ⟨hw, hclock, trivial⟩
    | (rw [‹s.pc = _›] at hat; exact hat.elim)

/-- Between the beginning of a tick and its log. -/
def PC.Selecting : PC → Prop
  | .reading _ | .expiring .. | .expireDue .. | .retiring .. | .retireDue .. | .logging .. => True
  | _ => False

theorem selecting_step (h : Step graceful sid s l s') (hs : s.pc.Selecting) :
    s'.pc.Selecting ∨ ∃ events ok, l = .log events ok := by
  cases h
  case log events expired ok hpc hok => exact .inr ⟨events, ok, rfl⟩
  case os | time | publish => exact .inl hs
  case denied hpc =>
    rcases hpc with ⟨v, todo, failed, hpc⟩ | ⟨id, todo, failed, hpc⟩ <;> rw [hpc] at hs <;>
      exact hs.elim
  all_goals first
    | exact .inl trivial
    | (rw [‹s.pc = _›] at hs; exact hs.elim)

theorem not_selecting_of_end (h : Step graceful sid s l s')
    (hend : l = .ret ∨ l = .raise ∨ l = .denied) : ¬ s.pc.Selecting := by
  rcases hend with rfl | rfl | rfl
  · cases h with
    | ret hpc =>
      rw [hpc]
      exact not_false
  · cases h with
    | raise hpc =>
      rw [hpc]
      exact not_false
  · cases h with
    | denied hpc =>
      rcases hpc with ⟨v, todo, failed, hpc⟩ | ⟨id, todo, failed, hpc⟩ <;> rw [hpc] <;>
        exact not_false

/-- `w` is selected, and will be announced. -/
def PC.Announces (w : Identity) : PC → Prop
  | .expiring _ _ expired _ | .expireDue _ _ _ _ expired _ | .retiring _ _ expired _
  | .retireDue _ _ _ _ expired _ => w ∈ expired
  | .logging events expired => w ∈ expired ∧ timeoutLine w ∈ events
  | _ => False

theorem announces_step (h : Step graceful sid s l s') (hs : s.pc.Announces w) :
    s'.pc.Announces w ∨ ∃ events ok, l = .log events ok := by
  cases h
  case log events expired ok hpc hok => exact .inr ⟨events, ok, rfl⟩
  case compose force expired events hpc =>
    rw [hpc] at hs
    have hd : w ∈ Dict.distinct expired := Dict.mem_distinct.mpr hs
    exact .inl ⟨hd, List.mem_append_right _ (List.mem_map_of_mem hd)⟩
  case os | time | publish => exact .inl hs
  case expireSelect | retireSelect =>
    rw [‹s.pc = _›] at hs
    exact .inl (List.mem_append_left _ hs)
  case denied hpc =>
    rcases hpc with ⟨v, todo, failed, hpc⟩ | ⟨id, todo, failed, hpc⟩ <;> rw [hpc] at hs <;>
      exact hs.elim
  all_goals
    rw [‹s.pc = _›] at hs
    first | exact hs.elim | exact .inl hs

/-- `w` is on the list of processes to kill. -/
def PC.Doomed (w : Identity) : PC → Prop
  | .killing todo _ => w ∈ todo
  | .signalling id todo _ => w = id ∨ w ∈ todo
  | _ => False

theorem doomed_of_log {events : List Event} {ok : Bool}
    (h : Step graceful sid s (.log events ok) s') (hs : s.pc.Announces w) :
    timeoutLine w ∈ events ∧ s'.pc.Doomed w := by
  cases h with
  | log _ expired _ hpc hok =>
    rw [hpc] at hs
    exact ⟨hs.2, hs.1⟩

/-- A doomed process is signalled, unless it has died or a termination raises. -/
theorem doomed_step (h : Step graceful sid s l s') (hs : s.pc.Doomed w) :
    s'.pc.Doomed w ∨ l = .signal w ∨ l = .denied ∨ s.os.live w = false := by
  have not_live {v : Identity} (hv : ∀ p, s.os.table v.pid = some p → p.created ≠ v.created) :
      s.os.live v = false := by
    cases hl : s.os.live v with
    | false => rfl
    | true => exact absurd rfl (hv _ (Processes.live_iff.mp hl))
  cases h
  case os | time | publish => exact .inl hs
  case denied => exact .inr (.inr (.inl rfl))
  case lookup v todo failed p hpc htable hcreated =>
    rw [hpc] at hs
    refine .inl ((List.mem_cons.mp hs).imp_left fun hv => ?_)
    rw [hv, hcreated]
  case lookupOther v todo failed hpc hother =>
    rw [hpc] at hs
    rcases List.mem_cons.mp hs with hv | hm
    · exact .inr (.inr (.inr (hv ▸ not_live hother)))
    · exact .inl hm
  case signal v todo failed p hpc htable hcreated =>
    rw [hpc] at hs
    rcases hs with hv | hm
    · exact .inr (.inl (by rw [hv]))
    · exact .inl hm
  case gone v todo failed hpc hgone =>
    rw [hpc] at hs
    rcases hs with hv | hm
    · exact .inr (.inr (.inr (hv ▸ not_live hgone)))
    · exact .inl hm
  all_goals
    rw [‹s.pc = _›] at hs
    exact absurd hs (by simp [PC.Doomed])

theorem not_doomed_of_end (h : Step graceful sid s l s') (hend : l = .ret ∨ l = .raise) :
    ¬ s.pc.Doomed w := by
  rcases hend with rfl | rfl
  · cases h with
    | ret hpc =>
      rw [hpc]
      exact List.not_mem_nil
  · cases h with
    | raise hpc =>
      rw [hpc]
      exact List.not_mem_nil

/-- The selected identities a program point carries. -/
def PC.chosen : PC → List Identity
  | .expiring _ _ expired _ | .expireDue _ _ _ _ expired _ | .retiring _ _ expired _
  | .retireDue _ _ _ _ expired _ | .logging _ expired => expired
  | .killing todo _ => todo
  | .signalling id todo _ => id :: todo
  | _ => []

/-- An identity is carried from the step that selects it, in the same tick. -/
theorem chosen_step (h : Step graceful sid s l s') (hw : w ∈ s'.pc.chosen) :
    (w ∈ s.pc.chosen ∧ ∀ force, l ≠ .tick force) ∨ l = .select w := by
  cases h
  case os | time | publish => exact .inl ⟨hw, by simp⟩
  case expireSelect | retireSelect =>
    rw [‹s.pc = _›]
    rcases List.mem_append.mp hw with hm | hm
    · exact .inl ⟨hm, by simp⟩
    · exact .inr (by rw [List.mem_singleton.mp hm])
  case compose hpc =>
    rw [hpc]
    exact .inl ⟨Dict.mem_distinct.mp hw, by simp⟩
  case lookup v todo failed p hpc htable hcreated =>
    rw [hpc]
    refine .inl ⟨?_, by simp⟩
    rw [hcreated] at hw
    exact hw
  case lookupOther | signal | gone =>
    rw [‹s.pc = _›]
    exact .inl ⟨by simp_all [PC.chosen], by simp⟩
  all_goals first
    | exact absurd hw List.not_mem_nil
    | (rw [‹s.pc = _›]; exact .inl ⟨hw, by simp⟩)

theorem chosen_of_signal {id : Identity} (h : Step graceful sid s (.signal id) s') :
    id ∈ s.pc.chosen := by
  cases h with
  | signal _ todo failed p hpc =>
    rw [hpc]
    exact List.mem_cons_self

/-- The workers `retire` is about to arm. -/
def PC.toArm : PC → List Identity
  | .observing scan => scan.result.filterMap recordIdentity?
  | .arming todo => todo
  | _ => []

/-- `retire` arms processes of the machine's history only. -/
def Known (s : State) : Prop := ∀ w ∈ s.pc.toArm, w ∈ s.os.seen

theorem known_step (h : Step graceful sid s l s') (hs : Known s) : Known s' := by
  cases h
  case retireOne v hpc hseen =>
    intro u hu
    rw [List.mem_singleton.mp hu]
    exact hseen
  case os q hq => exact fun u hu => hq.seen_mono (hs u hu)
  case time | publish => exact hs
  case observe scan scan' hpc hscan =>
    rw [Known, hpc] at hs
    intro u hu
    obtain ⟨record, hr, hu⟩ := List.mem_filterMap.mp hu
    rcases hscan.result_cases hr with hold | ⟨-, hlive⟩
    · exact hs u (List.mem_filterMap.mpr ⟨record, hold, hu⟩)
    · obtain ⟨v, hv, hvlive⟩ := live_of_isLive hlive
      rw [hv] at hu
      exact Option.some.inj hu ▸ Processes.seen_of_live hvlive
  case arm v todo hpc =>
    rw [Known, hpc] at hs
    exact fun u hu => hs u (List.mem_cons_of_mem _ hu)
  case retireAll => exact fun u hu => absurd hu List.not_mem_nil
  case observeDone hpc =>
    rw [Known, hpc] at hs
    exact hs
  all_goals exact fun u hu => absurd hu List.not_mem_nil

/-- The entry `setdefault` makes for a new worker. -/
theorem armed_of_arm (h : Step graceful sid s (.arm w) s') (hw : s.retirements.get? w = none) :
    s'.retirements.get? w = some (s.clock + graceful) := by
  cases h with
  | arm _ todo hpc =>
    show (s.retirements.setdefault w _).get? w = _
    simp [Dict.get?_setdefault, hw]

theorem seen_step (h : Step graceful sid s l s') (hw : w ∈ s.os.seen) : w ∈ s'.os.seen := by
  cases h
  case os q hq => exact hq.seen_mono hw
  all_goals exact hw

theorem dead_step (h : Step graceful sid s l s') (hw : w ∈ s.os.seen)
    (hd : s.os.live w = false) : s'.os.live w = false := by
  cases h
  case os q hq => exact hq.dead_stays hw hd
  all_goals exact hd

/-! ## Ticks along a run -/

/-- The tick that begins at step `a` hands its batch to the writer at step `b`. -/
structure Tick (r : Run (Step graceful sid)) (a b : Nat) (events : List Event) (ok : Bool) :
    Prop where
  lt : a < b
  le : b < r.length
  begins : ∃ force, r.label a = .tick force
  logs : r.label b = .log events ok
  first : ∀ m, a < m → m < b → ∀ events ok, r.label m ≠ .log events ok

variable {r : Run (Step graceful sid)} {a b i k : Nat} {events : List Event} {ok : Bool}

theorem selecting_of_tick {force : Bool} (ha : a < r.length) (hl : r.label a = .tick force) :
    (r.state (a + 1)).pc.Selecting := by
  have h := r.step_ok a ha
  rw [hl] at h
  generalize r.state (a + 1) = s' at h
  cases h with
  | tick _ hpc => exact trivial

/-- Until its log, a tick selects. -/
theorem Tick.selecting (ht : Tick r a b events ok) {m : Nat} (ham : a < m) (hmb : m ≤ b) :
    (r.state m).pc.Selecting := by
  obtain ⟨force, hl⟩ := ht.begins
  have ha : a < r.length := ht.lt.trans ht.le
  rcases r.holds_unless (E := fun _ l => ∃ events ok, l = .log events ok)
      (fun _ _ _ h hs => selecting_step h hs) ham (hmb.trans ht.le.le)
      (selecting_of_tick ha hl) with hs | ⟨k, hak, hkm, ev, o, hlog⟩
  · exact hs
  · exact absurd hlog (ht.first k hak (hkm.trans_le hmb) ev o)

/-- What a step selects, it carries. -/
theorem announces_of_select (h : Step graceful sid s (.select w) s') : s'.pc.Announces w := by
  cases h with
  | expireSelect | retireSelect => exact List.mem_append_right _ (List.mem_singleton_self _)

/-- A tick past the deadline selects the worker or finds it dead. -/
theorem Tick.meets (ht : Tick r a b events ok) (hw : (r.state a).retirements.get? w = some deadline)
    (hclock : deadline ≤ (r.state a).clock) :
    ∃ k, a < k ∧ k < b ∧ (r.label k = .select w ∨ r.label k = .drop w) := by
  obtain ⟨force, hl⟩ := ht.begins
  have hstep := r.step_ok a (ht.lt.trans ht.le)
  rw [hl] at hstep
  have hawait : Awaiting w deadline (r.state (a + 1)) := by
    generalize r.state (a + 1) = s' at hstep
    cases hstep with
    | tick _ hpc => exact ⟨hw, hclock, trivial⟩
  rcases r.holds_unless (E := fun _ l => l = .select w ∨ l = .drop w)
      (fun _ _ _ h hs => awaiting_step h hs) ht.lt ht.le.le hawait with hs | ⟨k, hak, hkb, hk⟩
  · have hlog := r.step_ok b ht.le
    rw [ht.logs] at hlog
    generalize r.state (b + 1) = s' at hlog
    cases hlog with
    | log _ expired _ hpc =>
      have hat := hs.2.2
      rw [hpc] at hat
      exact hat.elim
  · exact ⟨k, hak, hkb, hk⟩

/-- What a program point carries was selected since the beginning of the tick. -/
theorem selected_of_chosen (h0 : Init (r.state 0)) {m : Nat} (hm : m ≤ r.length)
    (hw : w ∈ (r.state m).pc.chosen) : ∃ k, k < m ∧ r.label k = .select w ∧
      ∀ n, k < n → n < m → ∀ force, r.label n ≠ .tick force := by
  induction m with
  | zero =>
    rw [h0.pc] at hw
    exact absurd hw List.not_mem_nil
  | succ m ih =>
    rcases chosen_step (r.step_ok m hm) hw with ⟨hw', htick⟩ | hsel
    · obtain ⟨k, hkm, hk, hno⟩ := ih (Nat.le_of_succ_le hm) hw'
      refine ⟨k, Nat.lt_succ_of_lt hkm, hk, fun n hkn hnm => ?_⟩
      rcases Nat.lt_succ_iff_lt_or_eq.mp hnm with hlt | rfl
      · exact hno n hkn hlt
      · exact htick
    · exact ⟨m, Nat.lt_succ_self m, hsel, fun n hkn hnm => by omega⟩

theorem not_live_of_drop (h : Step graceful sid s (.drop w) s') : s.os.live w = false := by
  cases h with
  | retireDead _ _ _ _ _ _ hpc hdead => exact hdead

theorem seen_run {m : Nat} (hseen : w ∈ (r.state k).os.seen) (hkm : k ≤ m) (hm : m ≤ r.length) :
    w ∈ (r.state m).os.seen :=
  r.stays (P := fun s => w ∈ s.os.seen) (fun _ _ _ h hs => seen_step h hs) hkm hm hseen

/-- A process of the history that is not live stays so. -/
theorem dead_run {m : Nat} (hseen : w ∈ (r.state k).os.seen) (hd : (r.state k).os.live w = false)
    (hkm : k ≤ m) (hm : m ≤ r.length) : (r.state m).os.live w = false := by
  exact (r.stays (P := fun s => w ∈ s.os.seen ∧ s.os.live w = false)
    (fun _ _ _ h hs => ⟨seen_step h hs.1, dead_step h hs.1 hs.2⟩) hkm hm ⟨hseen, hd⟩).2

/-- A worker is armed at time 0. -/
def armedAtZero : Run (Step 30 (.str "start")) :=
  let w : Identity := ⟨7, 0⟩
  let r := Run.start (Step 30 (.str "start"))
    { os := .ofList [⟨7, 0⟩], clock := 0, wall := 0
      observations := fun _ => .absent, stopping := .empty, retirements := .empty, pc := .idle }
    .environment
  let r := r.snoc (.retireOne _ w rfl (.inl rfl))
  let r := r.snoc (.arm _ w [] rfl)
  r.snoc (.retired _ rfl)

/-- A worker armed at time 0 is killed at time 30. -/
def stuckWorker : Run (Step 30 (.str "start")) :=
  let w : Identity := ⟨7, 0⟩
  let r := armedAtZero.snoc (.time _ 30 0 (by show (0 : ℚ) ≤ 30; decide))
  let r := r.snoc (.tick _ false rfl)
  let r := r.snoc (.read _ false [] rfl)
  let r := r.snoc (.expired _ false [] [] rfl)
  let r := r.snoc (.retireLive _ false w (0 + 30) [] [] [] rfl rfl)
  let r := r.snoc (.retireSelect _ false w (0 + 30) [] [] [] rfl
    (.inr (zero_add (30 : ℚ)).le))
  let r := r.snoc (.compose _ false [w] [] rfl)
  let r := r.snoc (.log _ [timeoutLine w] [w] false rfl (by simp))
  let r := r.snoc (.lookup _ w [] true ⟨0, false⟩ rfl rfl rfl)
  let r := r.snoc (.signal _ w [] true ⟨0, false⟩ rfl rfl rfl)
  r.snoc (.raise _ rfl)

end LclFastapi.Runtime.Controller
