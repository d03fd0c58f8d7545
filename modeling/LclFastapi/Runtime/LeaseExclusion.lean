import LclFastapi.Runtime.Lease

/-!
# Worker-id exclusion

`Inv` ties the lease files to the live identities and the lease objects: the file of every lease
that is acquired and not yet released by a live process holds exactly its owner's identity. It
rests on what each program point inside the critical section knows (`At`): a path about to be
written or unlinked belongs to no such lease (`Free`), because its recorded owner was not live,
nobody else can change a lease file meanwhile, and death is final.

`lease_exclusion` is the result, for the runs that call `release` once for each lease object
(`Once`).
-/

namespace LclFastapi.Runtime.Lease

open Lib (Identity Processes Reachable Task)

variable {s s' : State} {t u : Task} {pc : PC} {n : Nat} {p : Path}

/-- Lease object `n` is acquired and not yet released. -/
def Held (s : State) (n : Nat) (g : Grant) : Prop :=
  s.grants n = some g ∧ s.released n = false

/-- No lease of a live process has the file `p`. -/
def Free (s : State) (p : Path) : Prop :=
  ∀ n g, Held s n g → s.os.live g.owner = true → g.lease.path ≠ p

/-- The task `t` is the one that releases lease object `n`, which is still its own. -/
def Releasing (s : State) (t : Task) (n : Nat) : Prop :=
  s.callers n = some t ∧ ∃ g, Held s n g ∧ g.owner = t.process

/-- What the task `t` knows at each program point. -/
def At (s : State) (t : Task) : PC → Prop
  | .idle | .cleanupLock _ => True
  | .acquireLock base count => validRange base count = true
  | .acquireScan base count ids =>
    s.lock = some t ∧ validRange base count = true ∧ ∀ w ∈ ids, w ∈ workerIds base count
  | .acquireCheck base count w ids r =>
    s.lock = some t ∧ validRange base count = true ∧ (∀ v ∈ w :: ids, v ∈ workerIds base count) ∧
      r = readState (s.files (.lease w))
  | .acquireWrite base count w =>
    s.lock = some t ∧ validRange base count = true ∧ w ∈ workerIds base count ∧ Free s (.lease w)
  | .releaseLock n => Releasing s t n
  | .releaseRead n | .releaseCheck n _ | .releaseUnlink n => s.lock = some t ∧ Releasing s t n
  | .cleanupScan _ | .leave => s.lock = some t
  | .cleanupCheck p _ r => s.lock = some t ∧ r = readState (s.files p)
  | .cleanupUnlink p _ => s.lock = some t ∧ Free s p

/-- The facts about lease files and lease objects. -/
structure Leases (s : State) : Prop where
  owned : ∀ n g, Held s n g → s.os.live g.owner = true →
    s.files g.lease.path = .object (processIdentity g.owner)
  distinct : ∀ m n g h, Held s m g → Held s n h → s.os.live g.owner = true →
    s.os.live h.owner = true → g.lease.worker_id = h.lease.worker_id → m = n
  range : ∀ n g, s.grants n = some g →
    validRange g.base g.count = true ∧ g.lease.worker_id ∈ workerIds g.base g.count
  identity : ∀ n g, s.grants n = some g → g.lease.identity = processIdentity g.owner
  seen : ∀ n g, s.grants n = some g → g.owner ∈ s.os.seen
  fresh : ∀ n, s.serial ≤ n → s.grants n = none
  called : ∀ n, s.released n = true → s.callers n ≠ none

structure Inv (s : State) : Prop where
  leases : Leases s
  at_pc : ∀ t, At s t (s.pc t)
  active : ∀ t, s.pc t ≠ .idle → s.os.live t.process = true

/-! ## Program points under the steps of others -/

/-- Only the holder of the lock is inside. -/
theorem At.lock_of_inside (h : At s t pc) (hin : pc.inside = true) : s.lock = some t := by
  cases pc <;> simp only [PC.inside, Bool.false_eq_true] at hin <;> first | exact h | exact h.1

/-- Outside the section a task knows only its arguments and the lease it releases. -/
theorem At.outside (h : At s t pc) (hout : pc.inside = false)
    (hrel : ∀ n, Releasing s t n → Releasing s' t n) : At s' t pc := by
  cases pc <;> simp only [PC.inside, Bool.true_eq_false] at hout <;>
    first | exact h | exact hrel _ h

/-- A step inside the section, or one that takes a free lock, finds every other task outside. -/
theorem At.of_other (hi : Inv s) (hlock : s.lock = some t ∨ s.lock = none) (hne : u ≠ t)
    (hrel : ∀ n, Releasing s u n → Releasing s' u n) : At s' u (s.pc u) := by
  refine (hi.at_pc u).outside ?_ hrel
  cases hin : (s.pc u).inside with
  | false => rfl
  | true =>
    have h := (hi.at_pc u).lock_of_inside hin
    rcases hlock with hl | hl
    · rw [hl] at h
      exact absurd (Option.some.inj h).symm hne
    · rw [hl] at h
      exact absurd h (by simp)

/-- A path whose recorded owner is not live belongs to no lease of a live process. -/
theorem Leases.free_of_dead (h : Leases s) (hdead : isLive s.os (readState (s.files p)) = false) :
    Free s p := by
  intro n g hg hl hp
  have hfile := h.owned n g hg hl
  rw [hp] at hfile
  rw [hfile] at hdead
  simp only [readState, isLive_processIdentity] at hdead
  rw [hl] at hdead
  exact absurd hdead (by simp)

/-- The facts mention neither the lock nor the program points. -/
theorem Leases.congr (h : Leases s) (hos : s'.os = s.os) (hf : s'.files = s.files)
    (hg : s'.grants = s.grants) (hr : s'.released = s.released) (hc : s'.callers = s.callers)
    (hn : s'.serial = s.serial) : Leases s' := by
  cases s
  cases s'
  subst hos hf hg hr hc hn
  exact ⟨h.owned, h.distinct, h.range, h.identity, h.seen, h.fresh, h.called⟩

/-! ## Moving between program points -/

@[simp] theorem goto_pc (s : State) (t : Task) (pc : PC) :
    (s.goto t pc).pc = Function.update s.pc t pc := rfl

theorem goto_pc_self (s : State) (t : Task) (pc : PC) : (s.goto t pc).pc t = pc :=
  Function.update_self ..

/-- `s'` has the shared state of `b` and differs from `s` in the program point of `t` alone. -/
theorem inv_goto_of {b : State} (hi : Inv s) (hpcs : b.pc = s.pc) (hos : b.os = s.os)
    (hl : s.os.live t.process = true) (hb : Leases b) (ht : At b t pc)
    (hu : ∀ u, u ≠ t → At b u (s.pc u)) : Inv (b.goto t pc) := by
  refine ⟨hb.congr rfl rfl rfl rfl rfl rfl, fun u => ?_, fun u hu' => ?_⟩
  · by_cases h : u = t
    · rw [h, goto_pc, Function.update_self]
      cases pc <;> exact ht
    · rw [goto_pc, Function.update_of_ne h, hpcs]
      have := hu u h
      revert this
      cases s.pc u <;> exact id
  · show b.os.live u.process = true
    rw [hos]
    by_cases h : u = t
    · rw [h]; exact hl
    · rw [goto_pc, Function.update_of_ne h, hpcs] at hu'
      exact hi.active u hu'

/-- A step that only moves `t`. -/
theorem inv_goto (hi : Inv s) (hl : s.os.live t.process = true) (ht : At s t pc) :
    Inv (s.goto t pc) :=
  inv_goto_of hi rfl rfl hl hi.leases ht fun u _ => hi.at_pc u

/-- What a task knows where it stands. -/
theorem Inv.here {pc : PC} (hi : Inv s) (hpc : s.pc t = pc) : At s t pc := by
  rw [← hpc]
  exact hi.at_pc t

/-- A task inside a call is of a live process. -/
theorem Inv.live {pc : PC} (hi : Inv s) (hpc : s.pc t = pc) (hne : pc ≠ .idle) :
    s.os.live t.process = true :=
  hi.active t (hpc ▸ hne)

/-- A task goes on from a program point to another that what it knew leads to. -/
theorem inv_next {before pc : PC} (hi : Inv s) (hpc : s.pc t = before) (hne : before ≠ .idle)
    (hat : At s t before → At s t pc) : Inv (s.goto t pc) :=
  inv_goto hi (hi.live hpc hne) (hat (hi.here hpc))

/-- A step that changes the shared state with the lock held, or takes the free lock. -/
theorem inv_inside {b : State} (hi : Inv s) (hpcs : b.pc = s.pc) (hos : b.os = s.os)
    (hlock : s.lock = some t ∨ s.lock = none) (hl : s.os.live t.process = true) (hb : Leases b)
    (ht : At b t pc) (hrel : ∀ u n, u ≠ t → Releasing s u n → Releasing b u n) :
    Inv (b.goto t pc) :=
  inv_goto_of hi hpcs hos hl hb ht fun u hu => At.of_other hi hlock hu fun n => hrel u n hu

/-- A step that changes the lock alone, held or free. -/
theorem inv_lock {before pc : PC} (hi : Inv s) (hpc : s.pc t = before) (hne : before ≠ .idle)
    (k : Option Task) (hlock : s.lock = some t ∨ s.lock = none)
    (ht : At { s with lock := k } t pc) : Inv ({ s with lock := k }.goto t pc) :=
  inv_inside hi rfl rfl hlock (hi.live hpc hne) (hi.leases.congr rfl rfl rfl rfl rfl rfl) ht
    fun _ _ _ h => h

/-! ## The lease facts under changes of files and objects -/

/-- Replacing or removing a file that no live lease has. -/
theorem Leases.replace (h : Leases s) (hfree : Free s p) (v : Stored) :
    Leases { s with files := Function.update s.files p v } := by
  refine ⟨fun n g hg hl => ?_, h.distinct, h.range, h.identity, h.seen, h.fresh, h.called⟩
  show Function.update s.files p v g.lease.path = _
  rw [Function.update_of_ne (hfree n g hg hl)]
  exact h.owned n g hg hl

/-- A release taking effect leaves fewer leases. -/
theorem Leases.release (h : Leases s) (hc : s.callers n ≠ none) :
    Leases { s with released := Function.update s.released n true } := by
  have hsub : ∀ m g, Held { s with released := Function.update s.released n true } m g →
      Held s m g := by
    rintro m g ⟨hg, hr⟩
    refine ⟨hg, ?_⟩
    by_cases hm : m = n
    · subst hm; simp at hr
    · simpa [hm] using hr
  refine ⟨fun m g hg => h.owned m g (hsub m g hg),
    fun m k g g' hg hg' => h.distinct m k g g' (hsub m g hg) (hsub k g' hg'),
    h.range, h.identity, h.seen, h.fresh, fun m hm => ?_⟩
  by_cases hmn : m = n
  · exact hmn ▸ hc
  · exact h.called m (by simpa [hmn] using hm)

/-- Once its release has taken effect, the file of a lease belongs to no other live lease. -/
theorem Leases.free_of_release (h : Leases s) {g : Grant} (hg : Held s n g)
    (hl : s.os.live g.owner = true) :
    Free { s with released := Function.update s.released n true } g.lease.path := by
  rintro m k ⟨hk, hr⟩ hlk hp
  by_cases hm : m = n
  · subst hm; simp at hr
  · have hk' : Held s m k := ⟨hk, by simpa [hm] using hr⟩
    exact hm (h.distinct m n k g hk' hg hlk hl (by simpa [WorkerIdLease.path] using hp))

/-- A new lease object over a file that no live lease has. -/
theorem Leases.acquire (h : Leases s) {w : Nat} {base count : Int}
    (hl : s.os.live t.process = true) (hfree : Free s (.lease w))
    (hr : validRange base count = true ∧ w ∈ workerIds base count) :
    Leases { s with
      files := Function.update s.files (.lease w) (.object (processIdentity t.process))
      grants := Function.update s.grants s.serial
        (some ⟨⟨w, processIdentity t.process⟩, t.process, base, count⟩)
      serial := s.serial + 1 } := by
  -- a lease object is the new one or an old one on another path
  have hcase : ∀ m g, Function.update s.grants s.serial
      (some ⟨⟨w, processIdentity t.process⟩, t.process, base, count⟩) m = some g →
      (m = s.serial ∧ g = ⟨⟨w, processIdentity t.process⟩, t.process, base, count⟩) ∨
        (m ≠ s.serial ∧ s.grants m = some g) := by
    intro m g hg
    by_cases hm : m = s.serial
    · subst hm
      rw [Function.update_self, Option.some.injEq] at hg
      exact Or.inl ⟨rfl, hg.symm⟩
    · rw [Function.update_of_ne hm] at hg
      exact Or.inr ⟨hm, hg⟩
  refine ⟨?_, ?_, ?_, ?_, ?_, ?_, h.called⟩
  · rintro m g ⟨hg, hrel⟩ hlg
    rcases hcase m g hg with ⟨-, rfl⟩ | ⟨-, hold⟩
    · simp [WorkerIdLease.path]
    · show Function.update s.files (.lease w) _ g.lease.path = _
      rw [Function.update_of_ne (hfree m g ⟨hold, hrel⟩ hlg)]
      exact h.owned m g ⟨hold, hrel⟩ hlg
  · rintro m k g g' ⟨hg, hrel⟩ ⟨hg', hrel'⟩ hlg hlg' hw
    rcases hcase m g hg with ⟨hm, rfl⟩ | ⟨hm, hold⟩ <;>
      rcases hcase k g' hg' with ⟨hk, rfl⟩ | ⟨hk, hold'⟩
    · rw [hm, hk]
    · exact absurd (congrArg Path.lease hw.symm) (hfree k g' ⟨hold', hrel'⟩ hlg')
    · exact absurd (congrArg Path.lease hw) (hfree m g ⟨hold, hrel⟩ hlg)
    · exact h.distinct m k g g' ⟨hold, hrel⟩ ⟨hold', hrel'⟩ hlg hlg' hw
  · intro m g hg
    rcases hcase m g hg with ⟨-, rfl⟩ | ⟨-, hold⟩
    · exact hr
    · exact h.range m g hold
  · intro m g hg
    rcases hcase m g hg with ⟨-, rfl⟩ | ⟨-, hold⟩
    · rfl
    · exact h.identity m g hold
  · intro m g hg
    rcases hcase m g hg with ⟨-, rfl⟩ | ⟨-, hold⟩
    · exact Processes.seen_of_live hl
    · exact h.seen m g hold
  · intro m hm
    show Function.update s.grants s.serial _ m = none
    have hm' : s.serial + 1 ≤ m := hm
    rw [Function.update_of_ne (by omega)]
    exact h.fresh m (by omega)

/-- The kernel's steps keep the facts: the dead stay dead. -/
theorem Leases.withOs (h : Leases s) {q : Processes} (hq : Processes.Step s.os q) :
    Leases (s.withOs q) := by
  have hback : ∀ n g, s.grants n = some g → q.live g.owner = true → s.os.live g.owner = true := by
    intro n g hg hl
    rcases hq.live_of_live hl with hl' | hn
    · exact hl'
    · exact absurd (h.seen n g hg) hn
  refine ⟨fun n g hg hl => h.owned n g hg (hback n g hg.1 hl), ?_, h.range, h.identity,
    fun n g hg => hq.seen_mono (h.seen n g hg), h.fresh, h.called⟩
  intro m n g k hg hk hl hl' hw
  exact h.distinct m n g k hg hk (hback m g hg.1 hl) (hback n k hk.1 hl') hw

/-! ## The invariant -/

theorem inv_withOs (hi : Inv s) {q : Processes} (hq : Processes.Step s.os q) :
    Inv (s.withOs q) := by
  refine ⟨hi.leases.withOs hq, fun u => ?_, fun u hu => ?_⟩
  · show At (s.withOs q) u (if q.live u.process then s.pc u else .idle)
    cases hl : q.live u.process with
    | false => trivial
    | true =>
      rw [if_pos rfl]
      have hlock : s.lock = some u → (s.withOs q).lock = some u := by
        intro h
        simp [State.withOs, h, hl]
      have hfree : ∀ p, Free s p → Free (s.withOs q) p := by
        intro p hp n g hg hlg
        rcases hq.live_of_live hlg with hl' | hn
        · exact hp n g hg hl'
        · exact absurd (hi.leases.seen n g hg.1) hn
      have hat := hi.at_pc u
      cases hpc : s.pc u <;> rw [hpc] at hat
      case idle | cleanupLock => trivial
      case acquireLock | releaseLock => exact hat
      case acquireScan | acquireCheck | releaseRead | releaseCheck | releaseUnlink | cleanupCheck =>
        exact ⟨hlock hat.1, hat.2⟩
      case acquireWrite => exact ⟨hlock hat.1, hat.2.1, hat.2.2.1, hfree _ hat.2.2.2⟩
      case cleanupUnlink => exact ⟨hlock hat.1, hfree _ hat.2⟩
      case cleanupScan | leave => exact hlock hat
  · show q.live u.process = true
    by_contra hl
    exact hu (by simp [State.withOs, hl])

/-- A release by `t` takes effect on no lease object that another task releases. -/
theorem Releasing.of_released {m : Nat} {files : Path → Stored} (h : Releasing s u m)
    (hc : s.callers n = some t) (hu : u ≠ t) :
    Releasing { s with files := files, released := Function.update s.released n true } u m := by
  obtain ⟨hm, g, ⟨hg, hr⟩, ho⟩ := h
  have hmn : m ≠ n := by
    rintro rfl
    rw [hc, Option.some.injEq] at hm
    exact hu hm.symm
  exact ⟨hm, g, ⟨hg, by simpa [hmn] using hr⟩, ho⟩

/-- The runs of the protocol call `release` once for each lease object. -/
def Once (s : State) : Label → Prop
  | .release _ n => s.callers n = none
  | _ => True

/-- The first call of `release` for the lease object `n`. -/
theorem inv_release {n : Nat} {g : Grant} (hi : Inv s) (hl : s.os.live t.process = true)
    (hg : s.grants n = some g) (ho : g.owner = t.process) (hnone : s.callers n = none) :
    Inv ({ s with callers := Function.update s.callers n (some t) }.goto t (.releaseLock n)) := by
  have hheld : s.released n = false := by
    cases hr : s.released n with
    | false => rfl
    | true => exact absurd hnone (hi.leases.called n hr)
  -- the caller of another lease object keeps it: nobody had called `release` on this one
  have hother : ∀ m k, s.callers m = some k →
      Function.update s.callers n (some t) m = some k := by
    intro m k hk
    by_cases hm : m = n
    · rw [hm, hnone] at hk
      exact absurd hk (by simp)
    · rw [Function.update_of_ne hm]
      exact hk
  refine inv_goto_of hi rfl rfl hl ?_ ⟨by simp, g, ⟨hg, hheld⟩, ho⟩ fun u hu => ?_
  · refine ⟨hi.leases.owned, hi.leases.distinct, hi.leases.range, hi.leases.identity,
      hi.leases.seen, hi.leases.fresh, fun m hm => ?_⟩
    obtain ⟨k, hk⟩ := Option.ne_none_iff_exists'.mp (hi.leases.called m hm)
    simp [hother m k hk]
  · have hat := hi.at_pc u
    cases hpcu : s.pc u <;> rw [hpcu] at hat
    case releaseLock => exact ⟨hother _ _ hat.1, hat.2⟩
    case releaseRead | releaseCheck | releaseUnlink =>
      exact ⟨hat.1, hother _ _ hat.2.1, hat.2.2⟩
    all_goals exact hat

/-- **Every step keeps the invariant.** -/
theorem inv_step {l : Label} (hi : Inv s) (h : Step s l s') (hone : Once s l) : Inv s' := by
  cases h with
  | acquire t base count hl hpc hv => exact inv_goto hi hl hv
  | acquireInvalid => exact hi
  | acquireEnter t base count hpc hfree =>
    have hv := hi.here hpc
    exact inv_lock hi hpc nofun (some t) (.inr hfree) ⟨rfl, hv, fun w hw => hw⟩
  | acquireRead t base count w ids hpc =>
    exact inv_next hi hpc nofun fun ⟨hlock, hv, hids⟩ => ⟨hlock, hv, hids, rfl⟩
  | acquireLive t base count w ids r hpc hlive =>
    exact inv_next hi hpc nofun fun ⟨hlock, hv, hids, _⟩ =>
      ⟨hlock, hv, fun v hm => hids v (List.mem_cons_of_mem _ hm)⟩
  | acquireDead t base count w ids r hpc hdead =>
    refine inv_next hi hpc nofun fun ⟨hlock, hv, hids, hr⟩ => ?_
    exact ⟨hlock, hv, hids w List.mem_cons_self, hi.leases.free_of_dead (hr ▸ hdead)⟩
  | acquireWrite t base count w hpc =>
    obtain ⟨hlock, hv, hw, hfree⟩ := hi.here hpc
    have hl := hi.live hpc nofun
    refine inv_inside hi rfl rfl (.inl hlock) hl (hi.leases.acquire hl hfree ⟨hv, hw⟩) hlock ?_
    rintro u n hu ⟨hc, g, ⟨hg, hr⟩, ho⟩
    -- the new serial number is not the released one
    have hn : n ≠ s.serial := by
      rintro rfl
      rw [hi.leases.fresh s.serial (Nat.le_refl _)] at hg
      exact absurd hg (by simp)
    exact ⟨hc, g, ⟨by simpa [hn] using hg, hr⟩, ho⟩
  | acquireLost t base count w hpc =>
    obtain ⟨hlock, hv, hw, hfree⟩ := hi.here hpc
    exact inv_inside hi rfl rfl (.inl hlock) (hi.live hpc nofun)
      (hi.leases.replace hfree _) hlock fun u n _ h => h
  | acquireExhausted t base count hpc => exact inv_next hi hpc nofun fun h => h.1
  | release t n g hl hpc hg ho => exact inv_release hi hl hg ho hone
  | releaseEnter t n hpc hfree =>
    exact inv_lock hi hpc nofun (some t) (.inr hfree) ⟨rfl, hi.here hpc⟩
  | releaseRead t n g hpc hg => exact inv_next hi hpc nofun fun h => h
  | releaseOurs t n g r hpc hg heq => exact inv_next hi hpc nofun fun h => h
  | releaseForeign t n g r hpc hg hne =>
    obtain ⟨hlock, hrel⟩ := hi.here hpc
    exact inv_inside hi rfl rfl (.inl hlock) (hi.live hpc nofun)
      (hi.leases.release (by simp [hrel.1])) hlock fun u m hu h => h.of_released hrel.1 hu
  | releaseUnlink t n g hpc hg =>
    obtain ⟨hlock, hrel⟩ := hi.here hpc
    have hl := hi.live hpc nofun
    obtain ⟨hc, g', ⟨hg', hr⟩, ho⟩ := hrel
    rw [hg, Option.some.injEq] at hg'
    subst hg'
    have hfree := hi.leases.free_of_release ⟨hg, hr⟩ (by rw [ho]; exact hl)
    have hleases := (hi.leases.release (n := n) (by simp [hc])).replace hfree .absent
    exact inv_inside hi rfl rfl (.inl hlock) hl hleases hlock fun u m hu h => h.of_released hc hu
  | cleanup t paths hl hpc => exact inv_goto hi hl trivial
  | cleanupEnter t paths hpc hfree =>
    exact inv_lock hi hpc nofun (some t) (.inr hfree) rfl
  | cleanupRead t p paths hpc => exact inv_next hi hpc nofun fun h => ⟨h, rfl⟩
  | cleanupLive t p paths r hpc hlive => exact inv_next hi hpc nofun fun h => h.1
  | cleanupDead t p paths r hpc hdead =>
    refine inv_next hi hpc nofun fun ⟨hlock, hr⟩ => ?_
    exact ⟨hlock, hi.leases.free_of_dead (hr ▸ hdead)⟩
  | cleanupUnlink t p paths hpc =>
    obtain ⟨hlock, hfree⟩ := hi.here hpc
    exact inv_inside hi rfl rfl (.inl hlock) (hi.live hpc nofun)
      (hi.leases.replace hfree _) hlock fun u n _ h => h
  | cleanupDone t hpc => exact inv_next hi hpc nofun fun h => h
  | raise t hin =>
    refine inv_goto hi (hi.active t ?_) ((hi.at_pc t).lock_of_inside hin)
    rintro hpc
    rw [hpc] at hin
    exact absurd hin (by simp [PC.inside])
  | leave t hpc =>
    exact inv_lock hi hpc nofun none (.inl (hi.here hpc)) trivial
  | os q hq => exact inv_withOs hi hq

theorem inv_init (h : Init s) : Inv s := by
  obtain ⟨-, hpc, hg, -, hr⟩ := h
  refine ⟨⟨?_, ?_, ?_, ?_, ?_, fun n _ => hg n, ?_⟩, fun t => ?_, fun t ht => absurd (hpc t) ht⟩
  · rintro n g ⟨h, -⟩
    simp [hg] at h
  · rintro m n g k ⟨h, -⟩
    simp [hg] at h
  · intro n g h
    simp [hg] at h
  · intro n g h
    simp [hg] at h
  · intro n g h
    simp [hg] at h
  · intro n h
    simp [hr] at h
  · rw [hpc]
    trivial

/-- The reachable states of the runs that release each lease object at most once. -/
def LeaseReachable : State → Prop :=
  Reachable Init fun s l s' => Step s l s' ∧ Once s l

theorem inv_reachable (h : LeaseReachable s) : Inv s :=
  h.invariant (fun _ => inv_init) fun _ _ _ hs hi => inv_step hi hs.1 hs.2

/-- **Worker-id exclusion.** In every reachable state, each lease that is acquired and not yet
released by a live process has a number of the range its owner asked for and below 1024, its file
holds exactly its owner's identity, and no other such lease has its number. -/
theorem lease_exclusion (h : LeaseReachable s) {n : Nat} {g : Grant} (hg : Held s n g)
    (hl : s.os.live g.owner = true) :
    (g.base ≤ g.lease.worker_id ∧ (g.lease.worker_id : Int) < g.base + g.count ∧
        g.lease.worker_id < 1024) ∧
      g.lease.identity = processIdentity g.owner ∧
      s.files g.lease.path = .object g.lease.identity ∧
      ∀ m k, Held s m k → s.os.live k.owner = true → m ≠ n →
        k.lease.worker_id ≠ g.lease.worker_id := by
  have hi := (inv_reachable h).leases
  obtain ⟨hv, hw⟩ := hi.range n g hg.1
  have hid := hi.identity n g hg.1
  refine ⟨⟨((mem_workerIds hv).mp hw).1, ((mem_workerIds hv).mp hw).2,
    lt_of_mem_workerIds hv hw⟩, hid, ?_, ?_⟩
  · rw [hid]
    exact hi.owned n g hg hl
  · intro m k hk hlk hne heq
    exact hne (hi.distinct m n k g hk hg hlk hl heq)

/-! ### Two processes acquire from one range -/

/-- One live process, an empty service directory. -/
def oneProcess : State where
  os := .ofList [⟨7, 1⟩]
  files _ := .absent
  lock := none
  pc _ := .idle
  grants _ := none
  callers _ := none
  released _ := false
  serial := 0

/-- The only thread of `oneProcess`. -/
def oneTask : Task := ⟨⟨7, 1⟩, 0⟩

/-- A second one beside it. -/
def twoProcesses : State := { oneProcess with os := .ofList [⟨7, 1⟩, ⟨8, 2⟩] }

/-- The only thread of the second process. -/
def secondTask : Task := ⟨⟨8, 2⟩, 0⟩

theorem oneTask_live : twoProcesses.os.live oneTask.process = true := by
  simp [twoProcesses, oneProcess, oneTask, Processes.live, Processes.ofList, Processes.spawn]

theorem secondTask_live : twoProcesses.os.live secondTask.process = true := by
  simp [twoProcesses, oneProcess, secondTask, Processes.live, Processes.ofList, Processes.spawn]

/-- The lease object a task acquires from the range `{0, 1}`. -/
def grantOf (t : Task) (w : Nat) : Grant := ⟨⟨w, processIdentity t.process⟩, t.process, 0, 2⟩

/-- The first process takes the number `0`, and the second one, which finds its owner live, `1`. -/
theorem twoProcesses_acquire :
    ∃ s, LeaseReachable s ∧ Held s 0 (grantOf oneTask 0) ∧ Held s 1 (grantOf secondTask 1) ∧
      s.os = twoProcesses.os := by
  have hlive : isLive twoProcesses.os (processIdentity oneTask.process) = true := by
    rw [isLive_processIdentity]
    exact oneTask_live
  have h0 : LeaseReachable twoProcesses := .start ⟨rfl, fun _ => rfl, fun _ => rfl, fun _ => rfl,
    fun _ => rfl⟩
  have h1 := h0.next ⟨.acquire _ oneTask 0 2 oneTask_live rfl (by decide), trivial⟩
  have h2 := h1.next ⟨.acquireEnter _ oneTask 0 2 (by simp) rfl, trivial⟩
  have h3 := h2.next ⟨.acquireRead _ oneTask 0 2 0 [1] (by simp; decide), trivial⟩
  have h4 := h3.next ⟨.acquireDead _ oneTask 0 2 0 [1] []
    (by simp [State.goto, twoProcesses, oneProcess, readState]) rfl, trivial⟩
  have h5 := h4.next ⟨.acquireWrite _ oneTask 0 2 0 (by simp), trivial⟩
  have h6 := h5.next ⟨.leave _ oneTask (by simp), trivial⟩
  have h7 := h6.next ⟨.acquire _ secondTask 0 2 secondTask_live rfl (by decide), trivial⟩
  have h8 := h7.next ⟨.acquireEnter _ secondTask 0 2 (by simp) rfl, trivial⟩
  have h9 := h8.next ⟨.acquireRead _ secondTask 0 2 0 [1] (by simp; decide), trivial⟩
  have h10 := h9.next ⟨.acquireLive _ secondTask 0 2 0 [1] (processIdentity oneTask.process)
    (by simp [State.goto, readState]) hlive, trivial⟩
  have h11 := h10.next ⟨.acquireRead _ secondTask 0 2 1 [] (by simp), trivial⟩
  have h12 := h11.next ⟨.acquireDead _ secondTask 0 2 1 [] []
    (by simp [State.goto, twoProcesses, oneProcess, readState]) rfl, trivial⟩
  have h13 := h12.next ⟨.acquireWrite _ secondTask 0 2 1 (by simp), trivial⟩
  exact ⟨_, h13, ⟨by simp [State.goto, twoProcesses, oneProcess, grantOf], rfl⟩,
    ⟨by simp [State.goto, twoProcesses, oneProcess, grantOf], rfl⟩, rfl⟩

theorem lease_exclusion_acquired :
    ∃ s, LeaseReachable s ∧
      s.files (.lease 0) = .object (processIdentity ⟨7, 1⟩) ∧
      s.files (.lease 1) = .object (processIdentity ⟨8, 2⟩) ∧
      Held s 0 (grantOf oneTask 0) ∧
      ∀ m k, Held s m k → s.os.live k.owner = true → m ≠ 0 → k.lease.worker_id ≠ 0 := by
  obtain ⟨s, h, hf, hs, hos⟩ := twoProcesses_acquire
  have hfirst := lease_exclusion h hf (hos ▸ oneTask_live)
  have hsecond := lease_exclusion h hs (hos ▸ secondTask_live)
  exact ⟨s, h, hfirst.2.2.1, hsecond.2.2.1, hf, hfirst.2.2.2⟩

end LclFastapi.Runtime.Lease
