import LclFastapi.Verbose.Control

/-!
# Updates of the file-verbose target are linearizable

`Inv` says what each program point knows of the target: inside the lock, the value read is still
the target, and the value about to be written is its next revision; outside, every value a cache
or a refresh holds is one the target has left behind (`Register.Later`).

Over a run, a successful call has one step at which the whole update happens (`Linearized`), and
its other steps leave the target alone.
-/

namespace LclFastapi.Verbose

open Lib (Identity Processes Task Run)
open LclFastapi.Runtime (Stored Value)
open Register (Later)

variable {sid : String} {s s' : State} {l : Label} {t u : Task} {a b : FileVerboseState}

/-! ## The invariant -/

/-- The target file holds `a`. -/
def Reads (sid : String) (s : State) (a : FileVerboseState) : Prop :=
  s.target = .object (targetRecord sid a)

theorem Reads.read (h : Reads sid s a) : readTarget sid s.target = some a := by
  rw [h, readTarget_targetRecord]

theorem Reads.unique (h : Reads sid s a) (h' : readTarget sid s.target = some b) : a = b := by
  rw [h.read] at h'
  exact Option.some.inj h'

/-- What a thread at a program point knows, the target being `a`. -/
def At (s : State) (a : FileVerboseState) (t : Task) : PC → Prop
  | .idle | .initRead | .refreshRead | .updateReject | .updateLock _ => True
  | .observeCache state | .observePublish state => Later state a
  | .updateRead _ | .updateRaise => s.lock = some t
  | .updateCheck _ state | .updateStore state | .updateReturn state => s.lock = some t ∧ state = a
  | .updateWrite state => s.lock = some t ∧ state.enabled ≠ a.enabled ∧
      state = Register.update a state.enabled

structure Inv (sid : String) (s : State) (a : FileVerboseState) : Prop where
  reads : Reads sid s a
  cached : ∀ id c, s.cache id = some c → Later c a
  at_pc : ∀ t, At s a t (s.pc t)

/-- Only the holder of the lock is inside `update`'s critical section. -/
theorem At.lock_of_updating {pc : PC} (h : At s a t pc) (hu : pc.updating = true) :
    s.lock = some t := by
  cases pc <;> simp only [PC.updating, Bool.false_eq_true] at hu <;> first | exact h | exact h.1

/-- Outside the section a thread holds only values the target has left behind. -/
theorem At.outside {pc : PC} (h : At s a t pc) (hu : pc.updating = false) (hab : Later a b) :
    At s' b t pc := by
  cases pc <;> simp only [PC.updating, Bool.true_eq_false] at hu <;>
    first | trivial | exact Later.trans h hab

/-- Of the shared state, a thread's knowledge rests on the lock alone. -/
theorem At.congr {pc : PC} (h : At s a t pc) (hlock : s'.lock = s.lock) : At s' a t pc := by
  cases pc with
  | updateRead | updateRaise => exact hlock.trans h
  | updateCheck | updateStore | updateReturn | updateWrite => exact ⟨hlock.trans h.1, h.2⟩
  | _ => exact h

/-- What a thread knows where it stands. -/
theorem Inv.here {pc : PC} (hi : Inv sid s a) (hpc : s.pc t = pc) : At s a t pc := by
  rw [← hpc]
  exact hi.at_pc t

/-- While `t` holds the lock or takes it free, every other thread is outside. -/
theorem Inv.of_other (hi : Inv sid s a) (hlock : s.lock = some t ∨ s.lock = none) (hne : u ≠ t)
    (hab : Later a b) : At s' b u (s.pc u) := by
  refine (hi.at_pc u).outside ?_ hab
  cases hu : (s.pc u).updating with
  | false => rfl
  | true =>
    have h := (hi.at_pc u).lock_of_updating hu
    rcases hlock with hl | hl
    · rw [hl] at h
      exact absurd (Option.some.inj h).symm hne
    · rw [hl] at h
      exact absurd h (by simp)

/-! ## Steps of one thread -/

@[simp] theorem goto_pc (s : State) (t : Task) (pc : PC) :
    (s.goto t pc).pc = Function.update s.pc t pc := rfl

/-- A step of `t` from `s` through the shared state of `b` to a program point. -/
theorem inv_goto_of {m : State} {pc : PC} (hpcs : m.pc = s.pc) (hreads : Reads sid m b)
    (hcached : ∀ id c, m.cache id = some c → Later c b) (ht : At m b t pc)
    (hu : ∀ u, u ≠ t → At m b u (s.pc u)) : Inv sid (m.goto t pc) b := by
  refine ⟨hreads, hcached, fun u => ?_⟩
  by_cases h : u = t
  · rw [h, goto_pc, Function.update_self]
    exact ht.congr rfl
  · rw [goto_pc, Function.update_of_ne h, hpcs]
    exact (hu u h).congr rfl

/-- A step that only moves `t`. -/
theorem inv_goto {pc : PC} (hi : Inv sid s a) (ht : At s a t pc) : Inv sid (s.goto t pc) a :=
  inv_goto_of rfl hi.reads hi.cached ht fun u _ => hi.at_pc u

/-- A step that changes the lock, with the lock held or free. -/
theorem inv_lock {pc : PC} (hi : Inv sid s a) (k : Option Task)
    (hlock : s.lock = some t ∨ s.lock = none) (ht : At { s with lock := k } a t pc) :
    Inv sid ({ s with lock := k }.goto t pc) a :=
  inv_goto_of rfl hi.reads hi.cached ht fun _ hu => hi.of_other hlock hu (.refl a)

/-- A step that caches a value the target has left behind. -/
theorem inv_cache {pc : PC} {c : FileVerboseState} (hi : Inv sid s a) (hc : Later c a)
    (ht : At s a t pc) :
    Inv sid ({ s with cache := Function.update s.cache t.process (some c) }.goto t pc) a := by
  refine inv_goto_of rfl hi.reads (fun id d hd => ?_) (ht.congr rfl)
    fun u _ => (hi.at_pc u).congr rfl
  by_cases hid : id = t.process
  · subst hid
    have h : some c = some d := by simpa using hd
    exact Option.some.inj h ▸ hc
  · exact hi.cached id d (by simpa [hid] using hd)

/-- Every step keeps the invariant and makes at most one update of the target. -/
theorem inv_step (hi : Inv sid s a) (h : Step sid s l s') :
    ∃ b, Inv sid s' b ∧ (b = a ∨ ∃ t state, l = .inner t ∧ s.pc t = .updateWrite state ∧
      b = state ∧ state.enabled ≠ a.enabled ∧ state = Register.update a state.enabled) := by
  cases h with
  | init t hl hpc hnew => exact ⟨a, inv_goto hi trivial, .inl rfl⟩
  | initRead t state hpc hread =>
    obtain rfl := hi.reads.unique hread
    exact ⟨a, inv_cache hi (.refl a) trivial, .inl rfl⟩
  | refresh t c hl hpc hc => exact ⟨a, inv_goto hi trivial, .inl rfl⟩
  | refreshRead t state hpc hread =>
    obtain rfl := hi.reads.unique hread
    exact ⟨a, inv_goto hi (Later.refl a), .inl rfl⟩
  | observeCache t state c hpc hc =>
    have hs : Later state a := hi.here hpc
    have hobs : Later (observed c state) a := by
      unfold observed
      split
      · exact hs
      · exact hi.cached _ c hc
    exact ⟨a, inv_cache hi hobs hobs, .inl rfl⟩
  | observePublish t current role observed_at hpc =>
    exact ⟨a, inv_goto_of rfl hi.reads hi.cached trivial fun u _ => (hi.at_pc u).congr rfl,
      .inl rfl⟩
  | refreshFail t hpc => exact ⟨a, inv_goto hi trivial, .inl rfl⟩
  | call t enabled c hl hpc hc => exact ⟨a, inv_goto hi trivial, .inl rfl⟩
  | callInvalid t enabled hl hpc hne => exact ⟨a, inv_goto hi trivial, .inl rfl⟩
  | updateReject t hpc => exact ⟨a, inv_goto hi trivial, .inl rfl⟩
  | enter t enabled hpc hfree => exact ⟨a, inv_lock hi (some t) (.inr hfree) rfl, .inl rfl⟩
  | enterFail t enabled hpc => exact ⟨a, inv_goto hi trivial, .inl rfl⟩
  | updateRead t enabled state hpc hread =>
    obtain rfl := hi.reads.unique hread
    exact ⟨a, inv_goto hi ⟨hi.here hpc, rfl⟩, .inl rfl⟩
  | updateCheck t enabled state c hpc hc hrev =>
    obtain ⟨hlock, rfl⟩ := hi.here hpc
    refine ⟨state, inv_goto hi ?_, .inl rfl⟩
    split
    · rename_i hne
      exact ⟨hlock, hne, by rw [Register.update, if_neg hne]⟩
    · exact ⟨hlock, rfl⟩
  | updateBackwards t enabled state c hpc hc hrev =>
    obtain ⟨hlock, -⟩ := hi.here hpc
    exact ⟨a, inv_goto hi hlock, .inl rfl⟩
  | updateWrite t state hpc =>
    obtain ⟨hlock, hne, hup⟩ := hi.here hpc
    have hab : Later a state := hup ▸ Later.update a state.enabled
    refine ⟨state, inv_goto_of rfl rfl (fun id c hc => (hi.cached id c hc).trans hab)
      ⟨hlock, rfl⟩ fun u hu => hi.of_other (.inl hlock) hu hab, .inr ⟨t, state, rfl, hpc, rfl, hne,
      hup⟩⟩
  | updateFail t hpc =>
    have hlock : s.lock = some t := by
      refine (hi.at_pc t).lock_of_updating ?_
      rcases hpc with ⟨e, h⟩ | ⟨state, h⟩ <;> rw [h] <;> rfl
    exact ⟨a, inv_goto hi hlock, .inl rfl⟩
  | updateStore t state hpc =>
    obtain ⟨hlock, rfl⟩ := hi.here hpc
    exact ⟨state, inv_cache hi (.refl state) ⟨hlock, rfl⟩, .inl rfl⟩
  | updateReturn t state hpc =>
    obtain ⟨hlock, -⟩ := hi.here hpc
    exact ⟨a, inv_lock hi none (.inl hlock) trivial, .inl rfl⟩
  | updateRaise t hpc =>
    exact ⟨a, inv_lock hi none (.inl (hi.here hpc)) trivial, .inl rfl⟩
  | os q hq =>
    refine ⟨a, ⟨hi.reads, hi.cached, fun u => ?_⟩, .inl rfl⟩
    show At (s.withOs q) a u (if q.live u.process then s.pc u else .idle)
    cases hl : q.live u.process with
    | false => trivial
    | true =>
      rw [if_pos rfl]
      have hlock : s.lock = some u → (s.withOs q).lock = some u := by
        intro h
        simp [State.withOs, h, hl]
      have hat := hi.at_pc u
      cases hpc : s.pc u <;> rw [hpc] at hat
      case updateRead | updateRaise => exact hlock hat
      case updateCheck | updateStore | updateReturn | updateWrite => exact ⟨hlock hat.1, hat.2⟩
      all_goals exact hat

/-! ## What the steps of one call do -/

/-- Everything a step inside an `update` call can do. -/
theorem inner_cases (h : Step sid s (.inner t) s') :
    (s'.target = s.target ∧ s'.cache = s.cache ∧
      ((∃ e, s.pc t = .updateLock e ∧ s'.pc t = .updateRead e) ∨
        (∃ e state, s.pc t = .updateRead e ∧ readTarget sid s.target = some state ∧
          s'.pc t = .updateCheck e state) ∨
        (∃ e state, s.pc t = .updateCheck e state ∧ e ≠ state.enabled ∧
          s'.pc t = .updateWrite ⟨e, state.revision + 1⟩) ∨
        (∃ e state, s.pc t = .updateCheck e state ∧ e = state.enabled ∧
          s'.pc t = .updateStore state) ∨
        (((∃ e, s.pc t = .updateRead e) ∨ (∃ e state, s.pc t = .updateCheck e state) ∨
          ∃ state, s.pc t = .updateWrite state) ∧ s'.pc t = .updateRaise))) ∨
    (∃ state, s.pc t = .updateWrite state ∧ s'.target = .object (targetRecord sid state) ∧
      s'.pc t = .updateStore state) ∨
    ∃ state, s.pc t = .updateStore state ∧ s'.target = s.target ∧
      s'.pc t = .updateReturn state := by
  cases h with
  | enter _ e hpc => exact .inl ⟨rfl, rfl, .inl ⟨e, hpc, by simp⟩⟩
  | updateRead _ e state hpc hread =>
    exact .inl ⟨rfl, rfl, .inr (.inl ⟨e, state, hpc, hread, by simp⟩)⟩
  | updateCheck _ e state c hpc hc hrev =>
    refine .inl ⟨rfl, rfl, .inr (.inr ?_)⟩
    by_cases he : e = state.enabled
    · exact .inr (.inl ⟨e, state, hpc, he, by simp [he]⟩)
    · exact .inl ⟨e, state, hpc, he, by simp [he]⟩
  | updateBackwards _ e state c hpc hc hrev =>
    exact .inl ⟨rfl, rfl, .inr (.inr (.inr (.inr ⟨.inr (.inl ⟨e, state, hpc⟩), by simp⟩)))⟩
  | updateWrite _ state hpc => exact .inr (.inl ⟨state, hpc, rfl, by simp⟩)
  | updateFail _ hpc =>
    refine .inl ⟨rfl, rfl, .inr (.inr (.inr (.inr ⟨?_, by simp⟩)))⟩
    rcases hpc with h | h
    · exact .inl h
    · exact .inr (.inr h)
  | updateStore _ state hpc => exact .inr (.inr ⟨state, hpc, rfl, by simp⟩)

/-- Another thread's step leaves `t` where it is, unless the kernel kills its process. -/
theorem pc_of_other (h : Step sid s l s') (hne : l.task ≠ some t) :
    (s'.pc t = s.pc t ∧ s'.os = s.os) ∨
      ∃ q, Processes.Step s.os q ∧ s'.os = q ∧
        s'.pc t = if q.live t.process then s.pc t else .idle := by
  cases h
  case os q hq => exact .inr ⟨q, hq, rfl, rfl⟩
  all_goals
    refine .inl ⟨?_, rfl⟩
    exact Function.update_of_ne (fun h => hne (by rw [h]; rfl)) ..

/-! ## Calls along a run -/

section Runs

variable (r : Run (Step sid))

/-- A label that begins or ends a call of `t`. -/
def Boundary (t : Task) : Label → Prop
  | .call u _ | .ret u _ | .raise u => u = t
  | _ => False

/-- The call of `update(v)` that `t` makes at step `i` has not ended before step `j`. -/
structure Call (i j : Nat) (t : Task) (v : Value) : Prop where
  lt : i < j
  le : j ≤ r.length
  call : r.label i = .call t v
  open_ : ∀ m, i < m → m < j → ¬ Boundary t (r.label m)

/-- The steps of `t` from `i` to `j` change neither the target nor a cache. -/
def Untouched (t : Task) (i j : Nat) : Prop :=
  ∀ m, i ≤ m → m < j → (r.label m).task = some t →
    (r.state (m + 1)).target = (r.state m).target ∧ (r.state (m + 1)).cache = (r.state m).cache

/-- Between `i` and `j`, the update of `t` took effect in one of its steps, with the result
`state`, and its other steps did not change the target. -/
def Linearized (t : Task) (i j : Nat) (state : FileVerboseState) : Prop :=
  ∃ k a, i < k ∧ k < j ∧ r.label k = .inner t ∧ Reads sid (r.state k) a ∧
    Reads sid (r.state (k + 1)) state ∧ state = Register.update a state.enabled ∧
    ∀ m, i ≤ m → m < j → (r.label m).task = some t → m ≠ k →
      (r.state (m + 1)).target = (r.state m).target

/-- What the steps of the call so far have done, by the program point it has reached. -/
def Known (i j : Nat) (t : Task) (v : Value) : PC → Prop
  | .updateLock e | .updateRead e => v = .bool e ∧ Untouched r t i j
  | .updateCheck e state => v = .bool e ∧ Untouched r t i j ∧ ∃ k, i < k ∧ k < j ∧
      r.label k = .inner t ∧ Reads sid (r.state k) state ∧ Reads sid (r.state (k + 1)) state
  | .updateWrite state => v = .bool state.enabled ∧ Untouched r t i j
  | .updateStore state | .updateReturn state => v = .bool state.enabled ∧ Linearized r t i j state
  | .updateReject | .updateRaise => Untouched r t i j
  | _ => False

variable {r : Run (Step sid)} {i j : Nat} {v : Value}

theorem Untouched.other (h : Untouched r t i j) (hne : (r.label j).task ≠ some t) :
    Untouched r t i (j + 1) := by
  intro m him hm hl
  rcases Nat.lt_succ_iff_lt_or_eq.mp hm with hlt | rfl
  · exact h m him hlt hl
  · exact absurd hl hne

theorem Untouched.own (h : Untouched r t i j)
    (ht : (r.state (j + 1)).target = (r.state j).target)
    (hc : (r.state (j + 1)).cache = (r.state j).cache) : Untouched r t i (j + 1) := by
  intro m him hm hl
  rcases Nat.lt_succ_iff_lt_or_eq.mp hm with hlt | rfl
  · exact h m him hlt hl
  · exact ⟨ht, hc⟩

theorem Linearized.next {state : FileVerboseState} (h : Linearized r t i j state)
    (ht : (r.label j).task = some t → (r.state (j + 1)).target = (r.state j).target) :
    Linearized r t i (j + 1) state := by
  obtain ⟨k, a, hik, hkj, hl, ha, hs, hup, hrest⟩ := h
  refine ⟨k, a, hik, Nat.lt_succ_of_lt hkj, hl, ha, hs, hup, fun m him hm htask hmk => ?_⟩
  rcases Nat.lt_succ_iff_lt_or_eq.mp hm with hlt | rfl
  · exact hrest m him hlt htask hmk
  · exact ht htask

theorem Known.other {pc : PC} (h : Known r i j t v pc) (hne : (r.label j).task ≠ some t) :
    Known r i (j + 1) t v pc := by
  cases pc with
  | updateLock e | updateRead e | updateWrite e => exact ⟨h.1, h.2.other hne⟩
  | updateCheck e state =>
    obtain ⟨hv, hu, k, hik, hkj, hk⟩ := h
    exact ⟨hv, hu.other hne, k, hik, Nat.lt_succ_of_lt hkj, hk⟩
  | updateStore state | updateReturn state =>
    exact ⟨h.1, h.2.next fun hl => absurd hl hne⟩
  | updateReject | updateRaise => exact Untouched.other h hne
  | _ => exact h

/-- A step inside the call. -/
theorem Known.inner (hi : Inv sid (r.state j) a) (hij : i < j) (hj : j < r.length)
    (hl : r.label j = .inner t) (h : Known r i j t v ((r.state j).pc t)) :
    Known r i (j + 1) t v ((r.state (j + 1)).pc t) := by
  have hstep := r.step_ok j hj
  have hat := hi.at_pc t
  rw [hl] at hstep
  rcases inner_cases hstep with ⟨ht, hc, hcase⟩ | ⟨state, hpc, ht, hpc'⟩ | ⟨state, hpc, ht, hpc'⟩
  · rcases hcase with ⟨e, hpc, hpc'⟩ | ⟨e, state, hpc, hread, hpc'⟩ | ⟨e, state, hpc, hne, hpc'⟩ |
      ⟨e, state, hpc, he, hpc'⟩ | ⟨hpc, hpc'⟩
    · rw [hpc] at h
      rw [hpc']
      exact ⟨h.1, h.2.own ht hc⟩
    · obtain rfl := hi.reads.unique hread
      rw [hpc] at h
      rw [hpc']
      have hreads : Reads sid (r.state (j + 1)) a := ht.trans hi.reads
      exact ⟨h.1, h.2.own ht hc, j, hij, Nat.lt_succ_self j, hl, hi.reads, hreads⟩
    · rw [hpc] at h
      rw [hpc']
      exact ⟨h.1, h.2.1.own ht hc⟩
    · rw [hpc] at h
      rw [hpc']
      -- nothing to write: the read was the update
      obtain ⟨hv, hu, k, hik, hkj, hkl, hk, hk'⟩ := h
      refine ⟨he ▸ hv, k, state, hik, Nat.lt_succ_of_lt hkj, hkl, hk, hk',
        by simp [Register.update], fun m him hm htask _ => ?_⟩
      exact (hu.own ht hc m him hm htask).1
    · rw [hpc']
      rcases hpc with ⟨e, hpc⟩ | ⟨e, state, hpc⟩ | ⟨state, hpc⟩ <;> rw [hpc] at h
      · exact Untouched.own h.2 ht hc
      · exact Untouched.own h.2.1 ht hc
      · exact Untouched.own h.2 ht hc
  · rw [hpc] at h hat
    rw [hpc']
    obtain ⟨-, -, hup⟩ := hat
    refine ⟨h.1, j, a, hij, Nat.lt_succ_self j, hl, hi.reads, ht, hup, fun m him hm htask hmj => ?_⟩
    have hlt : m < j := by omega
    exact (h.2 m him hlt htask).1
  · rw [hpc] at h
    rw [hpc']
    exact ⟨h.1, h.2.next fun _ => ht⟩

/-- Where a step of `__init__` or `refresh` starts. -/
theorem refresh_pc (h : Step sid s (.refresh t) s') :
    (s.os.live t.process = true ∧ s.pc t = .idle) ∨ s.pc t = .initRead ∨ s.pc t = .refreshRead ∨
      (∃ state, s.pc t = .observeCache state) ∨ ∃ c, s.pc t = .observePublish c := by
  cases h with
  | init _ hl hpc _ => exact .inl ⟨hl, hpc⟩
  | initRead _ state hpc _ => exact .inr (.inl hpc)
  | refresh _ c hl hpc _ => exact .inl ⟨hl, hpc⟩
  | refreshRead _ state hpc _ => exact .inr (.inr (.inl hpc))
  | observeCache _ state c hpc _ => exact .inr (.inr (.inr (.inl ⟨state, hpc⟩)))
  | observePublish _ current role at_ hpc => exact .inr (.inr (.inr (.inr ⟨current, hpc⟩)))
  | refreshFail _ hpc =>
    rcases hpc with h | h | h
    · exact .inr (.inl h)
    · exact .inr (.inr (.inl h))
    · exact .inr (.inr (.inr (.inr h)))

/-- `t` is still in its call and knows `Known`, or its process has died. -/
def Within (r : Run (Step sid)) (i j : Nat) (t : Task) (v : Value) : Prop :=
  ((r.state j).os.live t.process = true ∧ Known r i j t v ((r.state j).pc t)) ∨
    ((r.state j).os.live t.process = false ∧ t.process ∈ (r.state j).os.seen ∧
      (r.state j).pc t = .idle)

/-- Inside the call, `t` knows what its program point tells. -/
theorem Within.known {pc : PC} (h : Within r i j t v) (hpc : (r.state j).pc t = pc)
    (hne : pc ≠ .idle) : Known r i j t v pc := by
  rcases h with ⟨-, hk⟩ | ⟨-, -, hidle⟩
  · rwa [hpc] at hk
  · exact absurd (hpc.symm.trans hidle) hne

/-- The first step of a call. -/
theorem within_call (hi : i < r.length) (hl : r.label i = .call t v) : Within r i (i + 1) t v := by
  have hstep := r.step_ok i hi
  rw [hl] at hstep
  generalize hs' : r.state (i + 1) = s' at hstep
  have touch (ht : s'.target = (r.state i).target) (hc : s'.cache = (r.state i).cache) :
      Untouched r t i (i + 1) := by
    intro m him hm _
    obtain rfl : m = i := by omega
    rw [hs']
    exact ⟨ht, hc⟩
  unfold Within
  rw [hs']
  cases hstep with
  | call _ e c hlive hpc hc =>
    refine .inl ⟨hlive, ?_⟩
    rw [goto_pc, Function.update_self]
    exact ⟨rfl, touch rfl rfl⟩
  | callInvalid _ _ hlive hpc hne =>
    refine .inl ⟨hlive, ?_⟩
    rw [goto_pc, Function.update_self]
    exact touch rfl rfl

/-- Any further step of the run before the call ends. -/
theorem Within.next (hi : Inv sid (r.state j) a) (hij : i < j) (hj : j < r.length)
    (hb : ¬ Boundary t (r.label j)) (h : Within r i j t v) : Within r i (j + 1) t v := by
  have hstep := r.step_ok j hj
  by_cases htask : (r.label j).task = some t
  · cases hl : r.label j with
    | call u e | ret u e | raise u =>
      rw [hl] at htask hb
      exact absurd (Option.some.inj htask) hb
    | os =>
      rw [hl] at htask
      exact absurd htask (by simp [Label.task])
    | inner u =>
      rw [hl] at htask hstep
      obtain rfl : u = t := Option.some.inj htask
      have hos : (r.state (j + 1)).os = (r.state j).os := by
        revert hstep
        generalize r.state (j + 1) = s'
        intro hstep
        cases hstep <;> rfl
      rcases h with ⟨hlive, hk⟩ | ⟨-, -, hidle⟩
      · exact .inl ⟨hos ▸ hlive, hk.inner hi hij hj hl⟩
      · rcases inner_cases hstep with ⟨-, -, hcase⟩ | ⟨state, hpc, -⟩ | ⟨state, hpc, -⟩ <;> simp_all
    | refresh u =>
      rw [hl] at htask hstep
      obtain rfl : u = t := Option.some.inj htask
      rcases refresh_pc hstep with ⟨hlive, hpc⟩ | hpc | hpc | ⟨state, hpc⟩ | ⟨c, hpc⟩ <;>
        rcases h with ⟨-, hk⟩ | ⟨hdead, -, hidle⟩ <;> simp_all [Known]
  · rcases pc_of_other hstep htask with ⟨hpc, hos⟩ | ⟨q, hq, hos, hpc⟩
    · rcases h with ⟨hlive, hk⟩ | ⟨hdead, hseen, hidle⟩
      · exact .inl ⟨hos ▸ hlive, hpc ▸ hk.other htask⟩
      · exact .inr ⟨hos ▸ hdead, hos ▸ hseen, hpc ▸ hidle⟩
    · unfold Within
      rw [hos, hpc]
      rcases h with ⟨hlive, hk⟩ | ⟨hdead, hseen, hidle⟩
      · cases hql : q.live t.process with
        | true => exact .inl ⟨rfl, by simpa using hk.other htask⟩
        | false => exact .inr ⟨rfl, hq.seen_mono (Processes.seen_of_live hlive), by simp⟩
      · exact .inr ⟨hq.dead_stays hseen hdead, hq.seen_mono hseen, by simp [hidle]⟩

/-! ## The runs of the service -/

theorem Run.inv (h0 : Init sid (r.state 0)) (hj : j ≤ r.length) : ∃ a, Inv sid (r.state j) a := by
  refine r.invariant (P := fun s => ∃ a, Inv sid s a) ?_ (fun s l s' h ⟨a, hi⟩ => ?_) j hj
  · obtain ⟨⟨a, ha⟩, -, hc, hpc⟩ := h0
    exact ⟨a, ha, fun id c h => by simp [hc id] at h, fun t => by rw [hpc t]; trivial⟩
  · obtain ⟨b, hb, -⟩ := inv_step hi h
    exact ⟨b, hb⟩

/-- A call has kept `Within` to any step before its end. -/
theorem Call.within (h0 : Init sid (r.state 0)) (h : Call r i j t v) : Within r i j t v := by
  obtain ⟨hij, hj, hl, hopen⟩ := h
  induction j, hij using Nat.le_induction with
  | base => exact within_call hj hl
  | succ j hij ih =>
    have hw := ih (Nat.le_of_succ_le hj) fun m hm hmj => hopen m hm (Nat.lt_succ_of_lt hmj)
    obtain ⟨a, ha⟩ := Run.inv h0 (Nat.le_of_succ_le hj)
    exact hw.next ha hij hj (hopen j hij (Nat.lt_succ_self j))

/-- The target at a later moment is the earlier one after some updates. -/
theorem later_of_le (h0 : Init sid (r.state 0)) (hij : i ≤ j) (hj : j ≤ r.length)
    (ha : Reads sid (r.state i) a) (hb : Reads sid (r.state j) b) : Later a b := by
  induction j, hij using Nat.le_induction generalizing b with
  | base =>
    obtain rfl := ha.unique hb.read
    exact .refl a
  | succ j hij ih =>
    obtain ⟨c, hc⟩ := Run.inv h0 (Nat.le_of_succ_le hj)
    have hac := ih (Nat.le_of_succ_le hj) hc.reads
    obtain ⟨d, hd, hcd⟩ := inv_step hc (r.step_ok j hj)
    obtain rfl := hd.reads.unique hb.read
    rcases hcd with rfl | ⟨u, state, -, -, rfl, -, hup⟩
    · exact hac
    · exact hac.trans (hup ▸ Later.update c d.enabled)

/-- A successful call was linearized. -/
theorem Call.ret (h0 : Init sid (r.state 0)) (h : Call r i j t v) {state : FileVerboseState}
    (hj : j < r.length) (hl : r.label j = .ret t state) :
    v = .bool state.enabled ∧ Linearized r t i (j + 1) state := by
  have hw := h.within h0
  have hstep := r.step_ok j hj
  rw [hl] at hstep
  generalize hs' : r.state (j + 1) = s' at hstep
  cases hstep with
  | updateReturn _ _ hpc =>
    obtain ⟨hv, hlin⟩ := hw.known hpc nofun
    exact ⟨hv, hlin.next fun _ => by rw [hs']; rfl⟩

/-- A call that raises changed nothing. -/
theorem Call.raise (h0 : Init sid (r.state 0)) (h : Call r i j t v) (hj : j < r.length)
    (hl : r.label j = .raise t) : Untouched r t i (j + 1) := by
  have hw := h.within h0
  have hstep := r.step_ok j hj
  rw [hl] at hstep
  generalize hs' : r.state (j + 1) = s' at hstep
  have touch (hu : Untouched r t i j) (ht : s'.target = (r.state j).target)
      (hc : s'.cache = (r.state j).cache) : Untouched r t i (j + 1) := by
    subst hs'
    exact hu.own ht hc
  cases hstep with
  | updateReject _ hpc => exact touch (hw.known hpc nofun) rfl rfl
  | enterFail _ e hpc => exact touch (hw.known hpc nofun).2 rfl rfl
  | updateRaise _ hpc => exact touch (hw.known hpc nofun) rfl rfl

end Runs

/-- What a run of the service guarantees of its file-verbose target. -/
structure Serialized (r : Run (Step sid)) : Prop where
  /-- The target is a valid state at every moment. -/
  target : ∀ i, i ≤ r.length → ∃ a, Reads sid (r.state i) a
  revision : ∀ i j a b, i ≤ j → j ≤ r.length → Reads sid (r.state i) a → Reads sid (r.state j) b →
    a.revision ≤ b.revision ∧ (b.revision = a.revision + 1 → b.enabled = !a.enabled)
  /-- A successful `update(v)` returns a state with the value `v`, in effect since one of its
  steps, which advanced the revision exactly when the value changed. -/
  success : ∀ i j t v state, Call r i j t v → j < r.length → r.label j = .ret t state →
    v = .bool state.enabled ∧ Linearized r t i (j + 1) state
  agree : ∀ i j t v state i' j' t' v' state',
    Call r i j t v → j < r.length → r.label j = .ret t state →
    Call r i' j' t' v' → j' < r.length → r.label j' = .ret t' state' →
    state.revision = state'.revision → state = state'
  failure : ∀ i j t v, Call r i j t v → j < r.length → r.label j = .raise t →
    Untouched r t i (j + 1)

/-- **Updates of the file-verbose target are serialized and none is lost**, for any number of
processes and threads, with deaths at any point. -/
theorem update_serialized (r : Run (Step sid)) (h0 : Init sid (r.state 0)) : Serialized r where
  target i hi := by
    obtain ⟨a, ha⟩ := Run.inv h0 hi
    exact ⟨a, ha.reads⟩
  revision i j a b hij hj ha hb := by
    have h := later_of_le h0 hij hj ha hb
    exact ⟨h.revision_le, h.opposite⟩
  success i j t v state h hj hl := h.ret h0 hj hl
  agree i j t v state i' j' t' v' state' h hj hl h' hj' hl' hrev := by
    obtain ⟨-, k, a, -, hk, -, -, hs, -⟩ := h.ret h0 hj hl
    obtain ⟨-, k', a', -, hk', -, -, hs', -⟩ := h'.ret h0 hj' hl'
    rcases Nat.le_total k k' with hkk | hkk
    · exact (later_of_le h0 (by omega) (by omega) hs hs').eq_of_revision hrev
    · exact ((later_of_le h0 (by omega) (by omega) hs' hs).eq_of_revision hrev.symm).symm
  failure i j t v h hj hl := h.raise h0 hj hl

/-- The first of two processes creates its control object. -/
def loaded : Run (Step "service") :=
  let t : Task := ⟨⟨1, 0⟩, 0⟩
  let r := Run.start (Step "service")
    { os := .ofList [⟨1, 0⟩, ⟨2, 0⟩]
      target := .object (targetRecord "service" ⟨false, 0⟩), lock := none, cache := fun _ => none
      observations := fun _ => .absent, pc := fun _ => .idle } .os
  let r := r.snoc (.init _ t rfl rfl rfl)
  let r := r.snoc (.initRead _ t ⟨false, 0⟩ rfl (readTarget_targetRecord ..))
  let r := r.snoc (.refreshRead _ t ⟨false, 0⟩ rfl (readTarget_targetRecord ..))
  let r := r.snoc (.observeCache _ t ⟨false, 0⟩ ⟨false, 0⟩ rfl rfl)
  r.snoc (.observePublish _ t ⟨false, 0⟩ "api" 0 rfl)

/-- The second one does so too, and both call `update`: the file is switched on, then off. -/
def switched : Run (Step "service") :=
  let t : Task := ⟨⟨1, 0⟩, 0⟩
  let u : Task := ⟨⟨2, 0⟩, 0⟩
  let r := loaded.snoc (.init _ u rfl rfl rfl)
  let r := r.snoc (.initRead _ u ⟨false, 0⟩ rfl (readTarget_targetRecord ..))
  let r := r.snoc (.refreshRead _ u ⟨false, 0⟩ rfl (readTarget_targetRecord ..))
  let r := r.snoc (.observeCache _ u ⟨false, 0⟩ ⟨false, 0⟩ rfl rfl)
  let r := r.snoc (.observePublish _ u ⟨false, 0⟩ "api" 0 rfl)
  let r := r.snoc (.call _ t true ⟨false, 0⟩ rfl rfl rfl)
  let r := r.snoc (.call _ u false ⟨false, 0⟩ rfl rfl rfl)
  let r := r.snoc (.enter _ t true rfl rfl)
  let r := r.snoc (.updateRead _ t true ⟨false, 0⟩ rfl (readTarget_targetRecord ..))
  let r := r.snoc (.updateCheck _ t true ⟨false, 0⟩ ⟨false, 0⟩ rfl rfl (Nat.le_refl 0))
  let r := r.snoc (.updateWrite _ t ⟨true, 1⟩ rfl)
  let r := r.snoc (.updateStore _ t ⟨true, 1⟩ rfl)
  let r := r.snoc (.updateReturn _ t ⟨true, 1⟩ rfl)
  let r := r.snoc (.enter _ u false rfl rfl)
  let r := r.snoc (.updateRead _ u false ⟨true, 1⟩ rfl (readTarget_targetRecord ..))
  let r := r.snoc (.updateCheck _ u false ⟨true, 1⟩ ⟨false, 0⟩ rfl rfl (Nat.zero_le 1))
  let r := r.snoc (.updateWrite _ u ⟨false, 2⟩ rfl)
  let r := r.snoc (.updateStore _ u ⟨false, 2⟩ rfl)
  r.snoc (.updateReturn _ u ⟨false, 2⟩ rfl)

theorem update_serialized_switched :
    switched.label 11 = .call ⟨⟨2, 0⟩, 0⟩ (.bool false) ∧
      switched.label 17 = .ret ⟨⟨1, 0⟩, 0⟩ ⟨true, 1⟩ ∧
      switched.label 23 = .ret ⟨⟨2, 0⟩, 0⟩ ⟨false, 2⟩ ∧ Serialized switched :=
  ⟨rfl, rfl, rfl, update_serialized switched ⟨⟨⟨false, 0⟩, rfl⟩, rfl, fun _ => rfl, fun _ => rfl⟩⟩

end LclFastapi.Verbose
