import LclFastapi.Runtime.LeaseExclusion

/-!
# Repeated releases (`WorkerIdLease.release`)

`release` removes a lease file whenever the file carries the process's own pid and creation time.
Two leases that one process acquires one after the other for one worker id carry the same identity,
so a repeated release of the first also removes the file of the second.

* `Repeats`: a task is inside `release` of a lease object whose release has taken effect already.
* `Reacquired`: since that release, the owner has written the same worker id's file again, and the
  file has stood ever since.
* **`release_idempotent`**: in every run in which no repeated release reads its file while the lease
  is reacquired, no repeated release changes any lease file.
* `reread_iff`: the condition is exact for each read, the comparison of a repeated release succeeds
  if and only if the lease is reacquired.
* `reacquired_removed`: the run in which it is.

No bound is put on how often `release` is called, so the invariant here (`Section`) is the part of
the allocation protocol that does not rest on single releases: who is inside the lock, and what
`release` knows of the file it has read.
-/

namespace LclFastapi.Runtime.Lease

open Lib (Identity Processes Reachable Run Task)

variable {s s' : State} {l : Label} {t u : Task} {n : Nat} {g : Grant}

/-! ## The critical section -/

/-- What `release` knows of its file between the read and the unlink. -/
def Compared (s : State) : PC → Prop
  | .releaseCheck n r => ∃ g, s.grants n = some g ∧ r = readState (s.files g.lease.path)
  | .releaseUnlink n =>
    ∃ g, s.grants n = some g ∧ (readState (s.files g.lease.path)).pyEq g.lease.identity = true
  | _ => True

structure Section (s : State) : Prop where
  lock : ∀ t, (s.pc t).inside = true → s.lock = some t
  compared : ∀ t, Compared s (s.pc t)
  fresh : ∀ n, s.serial ≤ n → s.grants n = none
  released : ∀ n, s.released n = true → s.grants n ≠ none
  identity : ∀ n g, s.grants n = some g → g.lease.identity = processIdentity g.owner

/-- A task moves on inside the lock, or takes it when it is free. -/
theorem Step.inner_lock (h : Step s (.inner t) s') : (s.pc t).inside = true ∨ s.lock = none := by
  cases h <;> first | exact .inr ‹_› | exact .inl ‹_› | exact .inl (by simp [*, PC.inside])

theorem Step.inner_pc (h : Step s (.inner t) s') (hu : u ≠ t) : s'.pc u = s.pc u := by
  cases h <;> simp [State.goto, hu]

/-- While a task is inside, the steps of everybody else leave it and the files as they are. -/
theorem Step.other (h : Step s l s') (hs : Section s) (hin : (s'.pc u).inside = true)
    (hu : l ≠ .inner u) :
    s'.pc u = s.pc u ∧ s'.lock = some u ∧ s'.files = s.files ∧ s'.grants = s.grants ∧
      s'.released = s.released := by
  cases l with
  | inner t =>
    have hne : u ≠ t := fun h => hu (h ▸ rfl)
    have hpc := h.inner_pc hne
    have hlock := hs.lock u (hpc ▸ hin)
    rcases h.inner_lock with ht | hfree
    · rw [hs.lock t ht, Option.some.injEq] at hlock
      exact absurd hlock.symm hne
    · rw [hfree] at hlock
      exact absurd hlock (by simp)
  | acquire t | release t m | cleanup t =>
    have hne : u ≠ t := by
      rintro rfl
      cases h <;> simp_all [State.goto, PC.inside]
    have hpc : s'.pc u = s.pc u := by
      cases h <;> simp [State.goto, hne]
    have hlock := hs.lock u (hpc ▸ hin)
    cases h <;> exact ⟨hpc, hlock, rfl, rfl, rfl⟩
  | os =>
    cases h with
    | os q hq =>
      have hl : q.live u.process = true := by
        cases hl : q.live u.process with
        | true => rfl
        | false => simp [State.withOs, hl, PC.inside] at hin
      have hpc : (s.withOs q).pc u = s.pc u := by simp [State.withOs, hl]
      have hlock := hs.lock u (hpc ▸ hin)
      exact ⟨hpc, by simp [State.withOs, hlock, hl], rfl, rfl, rfl⟩

/-- After its own step a task that is still inside holds the lock and knows what it has read. -/
theorem Step.own (h : Step s (.inner t) s') (hs : Section s) :
    ((s'.pc t).inside = true → s'.lock = some t) ∧ Compared s' (s'.pc t) := by
  have hlock := hs.lock t
  have hcmp := hs.compared t
  cases h with
  | acquireEnter | releaseEnter | cleanupEnter => simp [State.goto, Compared]
  | releaseRead t n g hpc hg =>
    refine ⟨fun _ => hlock (by simp [hpc, PC.inside]), ?_⟩
    simp [State.goto, Compared, hg]
  | releaseOurs t n g r hpc hg heq =>
    refine ⟨fun _ => hlock (by simp [hpc, PC.inside]), ?_⟩
    obtain ⟨g', hg', rfl⟩ : Compared s (.releaseCheck n r) := hpc ▸ hcmp
    obtain rfl : g = g' := Option.some.inj (hg.symm.trans hg')
    simpa [State.goto, Compared] using ⟨g, hg, heq⟩
  | raise t hin => simp [State.goto, Compared, hlock hin]
  | leave => simp [State.goto, Compared, PC.inside]
  | _ => simp_all [State.goto, Compared, PC.inside]

/-- Program points outside the lock know nothing of a file. -/
theorem Compared.of_outside {pc : PC} (h : pc.inside = false) : Compared s pc := by
  cases pc <;> trivial

theorem section_init (h : Init s) : Section s := by
  obtain ⟨-, hpc, hg, -, hr⟩ := h
  refine ⟨fun t ht => ?_, fun t => ?_, fun n _ => hg n, fun n hn => ?_, fun n g hn => ?_⟩
  · simp [hpc, PC.inside] at ht
  · rw [hpc]
    trivial
  · simp [hr] at hn
  · simp [hg] at hn

/-- A lease object keeps its owner and its identity. -/
theorem Step.grants_mono (h : Step s l s') (hs : Section s) (hg : s.grants n = some g) :
    s'.grants n = some g := by
  cases h with
  | acquireWrite t base count w hpc =>
    have hne : n ≠ s.serial := by
      rintro rfl
      rw [hs.fresh _ le_rfl] at hg
      exact absurd hg (by simp)
    simpa [State.goto, hne] using hg
  | _ => exact hg

/-- An absent file carries no identity. -/
theorem pyEq_absent (id : Identity) : (readState .absent).pyEq (processIdentity id) = false := rfl

/-- A release takes effect when its file does not carry the identity, or no longer does. -/
theorem Step.released_cases (h : Step s l s') (hs : Section s) (hr : s'.released n = true) :
    s.released n = true ∨
      ∃ g, s.grants n = some g ∧
        (readState (s'.files g.lease.path)).pyEq g.lease.identity = false := by
  cases h with
  | releaseForeign t m g r hpc hg hne =>
    by_cases hm : n = m
    · subst hm
      obtain ⟨g', hg', rfl⟩ : Compared s (.releaseCheck n r) := hpc ▸ hs.compared t
      obtain rfl : g = g' := Option.some.inj (hg.symm.trans hg')
      exact .inr ⟨g, hg, hne⟩
    · exact .inl (by simpa [State.goto, hm] using hr)
  | releaseUnlink t m g hpc hg =>
    by_cases hm : n = m
    · subst hm
      refine .inr ⟨g, hg, ?_⟩
      simp [State.goto, hs.identity n g hg, pyEq_absent]
    · exact .inl (by simpa [State.goto, hm] using hr)
  | _ => exact .inl hr

theorem section_step (hs : Section s) (h : Step s l s') : Section s' := by
  refine ⟨fun u hin => ?_, fun u => ?_, fun n hn => ?_, fun n hn => ?_, fun n g hg => ?_⟩
  · by_cases hu : l = .inner u
    · subst hu
      exact (h.own hs).1 hin
    · exact (h.other hs hin hu).2.1
  · by_cases hu : l = .inner u
    · subst hu
      exact (h.own hs).2
    · cases hin : (s'.pc u).inside with
      | false => exact .of_outside hin
      | true =>
        obtain ⟨hpc, -, hf, hg, -⟩ := h.other hs hin hu
        have hc := hs.compared u
        rw [hpc]
        revert hc
        cases s.pc u <;> simp only [Compared, hf, hg] <;> exact id
  · cases h with
    | acquireWrite t base count w hpc =>
      have hn : s.serial + 1 ≤ n := hn
      simpa [State.goto, show n ≠ s.serial by omega] using hs.fresh n (by omega)
    | _ => exact hs.fresh n hn
  · rcases h.released_cases hs hn with hr | ⟨g, hg, -⟩
    · obtain ⟨g, hg⟩ := Option.ne_none_iff_exists'.mp (hs.released n hr)
      simp [h.grants_mono hs hg]
    · simp [h.grants_mono hs hg]
  · cases h with
    | acquireWrite t base count w hpc =>
      by_cases hn : n = s.serial
      · subst hn
        obtain rfl : _ = g := by simpa [State.goto] using hg
        rfl
      · exact hs.identity n g (by simpa [State.goto, hn] using hg)
    | _ => exact hs.identity n g hg

/-! ## Repeated releases -/

/-- The lease object whose `release` the program point is in. -/
def PC.releasing : PC → Option Nat
  | .releaseLock n | .releaseRead n | .releaseCheck n _ | .releaseUnlink n => some n
  | _ => none

/-- `t` is inside `release` of lease object `n`, which has been released already. -/
def Repeats (s : State) (t : Task) (n : Nat) : Prop :=
  (s.pc t).releasing = some n ∧ s.released n = true

/-- Since the release of lease object `n` took effect its owner has written the same worker id's
file again, in an `acquire`, and the file has stood ever since. -/
def Reacquired (r : Run Step) (i n : Nat) : Prop :=
  ∃ g, (r.state i).grants n = some g ∧
    ∃ j t base count, j < i ∧ r.label j = .inner t ∧ t.process = g.owner ∧
      (r.state j).released n = true ∧
      (r.state j).pc t = .acquireWrite base count g.lease.worker_id ∧
      ∀ k, j < k → k ≤ i → (r.state k).files g.lease.path = .object (processIdentity g.owner)

/-- What a step can make of one file. -/
theorem Step.files_cases (h : Step s l s') (p : Path) :
    s'.files p = s.files p ∨ s'.files p = .absent ∨
      ∃ t base count w, l = .inner t ∧ s.pc t = .acquireWrite base count w ∧ p = .lease w ∧
        s'.files p = .object (processIdentity t.process) := by
  cases h with
  | acquireWrite t base count w hpc | acquireLost t base count w hpc =>
    by_cases hp : p = .lease w
    · exact .inr (.inr ⟨t, base, count, w, rfl, hpc, hp, by simp [State.goto, hp]⟩)
    · exact .inl (by simp [State.goto, hp])
  | releaseUnlink t n g hpc hg =>
    by_cases hp : p = g.lease.path
    · exact .inr (.inl (by simp [State.goto, hp]))
    · exact .inl (by simp [State.goto, hp])
  | cleanupUnlink t q ps hpc =>
    by_cases hp : p = q
    · exact .inr (.inl (by simp [State.goto, hp]))
    · exact .inl (by simp [State.goto, hp])
  | _ => exact .inl rfl

/-- The identity records of two processes are equal for one process only. -/
theorem pyEq_processIdentity {a b : Identity} :
    (processIdentity a).pyEq (processIdentity b) = true ↔ a = b := by
  obtain ⟨p, c⟩ := a
  obtain ⟨q, d⟩ := b
  simp [processIdentity, Record.pyEq, Record.get, Value.pyEq, Value.number?, List.lookup_cons]

/-- What a repeated release knows when none has read a reacquired file: its file is not its own. -/
def Spared (s : State) : PC → Prop
  | .releaseCheck n r =>
    s.released n = true → ∀ g, s.grants n = some g → r.pyEq g.lease.identity = false
  | .releaseUnlink n => s.released n = false
  | _ => True

theorem Step.own_spared (h : Step s (.inner t) s') (hp : Spared s (s.pc t))
    (hread : ∀ n g, s.pc t = .releaseRead n → s.released n = true → s.grants n = some g →
      (readState (s.files g.lease.path)).pyEq g.lease.identity = false) :
    Spared s' (s'.pc t) := by
  cases h with
  | releaseRead t n g hpc hg =>
    rw [goto_pc, Function.update_self]
    intro hr g' hg'
    obtain rfl : g = g' := Option.some.inj (hg.symm.trans hg')
    exact hread n g hpc hr hg
  | releaseOurs t n g r hpc hg heq =>
    rw [goto_pc, Function.update_self]
    have hp : Spared s (.releaseCheck n r) := hpc ▸ hp
    cases hr : s.released n with
    | false => exact hr
    | true =>
      rw [hp hr g hg] at heq
      exact absurd heq (by simp)
  | _ => simp [State.goto, Spared]

/-- Of the steps of a release only the unlink changes a file. -/
theorem Step.releasing_files (h : Step s (.inner t) s') (hrel : (s.pc t).releasing = some n)
    (hne : s.pc t ≠ .releaseUnlink n) : s'.files = s.files := by
  cases h with
  | acquireWrite t base count w hpc | acquireLost t base count w hpc =>
    rw [hpc] at hrel
    exact absurd hrel (by simp [PC.releasing])
  | cleanupUnlink t p ps hpc =>
    rw [hpc] at hrel
    exact absurd hrel (by simp [PC.releasing])
  | releaseUnlink t m g hpc hg =>
    rw [hpc] at hrel hne
    exact absurd (congrArg PC.releaseUnlink (Option.some.inj hrel)) hne
  | _ => rfl

section Runs

variable {r : Run Step} (h0 : Init (r.state 0)) {i : Nat}
include h0

theorem section_at (hi : i ≤ r.length) : Section (r.state i) :=
  r.invariant (section_init h0) (fun _ _ _ h hs => section_step hs h) i hi

/-- **A file that carries the identity of a released lease was written by an `acquire` since.** -/
theorem reacquired_of_file (hi : i ≤ r.length) {g : Grant} (hg : (r.state i).grants n = some g)
    (hr : (r.state i).released n = true)
    (hf : (readState ((r.state i).files g.lease.path)).pyEq g.lease.identity = true) :
    Reacquired r i n := by
  induction i with
  | zero => simp [h0.2.2.1 n] at hg
  | succ i ih =>
    have hs := section_at h0 (Nat.le_of_succ_le hi)
    have hstep := r.step_ok i hi
    rcases hstep.released_cases hs hr with hr' | ⟨g', hg', hne⟩
    · obtain ⟨g', hg'⟩ := Option.ne_none_iff_exists'.mp (hs.released n hr')
      obtain rfl : g' = g := Option.some.inj ((hstep.grants_mono hs hg').symm.trans hg)
      rcases hstep.files_cases g'.lease.path with
        hsame | habs | ⟨t, base, count, w, hl, hpc, hp, hw⟩
      · -- the file stands: so does what wrote it
        rw [hsame] at hf
        obtain ⟨g, hgi, j, t, base, count, hj, hl, ht, hrj, hpc, hk⟩ :=
          ih (Nat.le_of_succ_le hi) hg' hr' hf
        obtain rfl : g = g' := Option.some.inj (hgi.symm.trans hg')
        refine ⟨g, hg, j, t, base, count, Nat.lt_succ_of_lt hj, hl, ht, hrj, hpc,
          fun k hjk hki => ?_⟩
        rcases Nat.le_succ_iff.mp hki with hki | rfl
        · exact hk k hjk hki
        · rw [hsame]
          exact hk i hj le_rfl
      · rw [habs, hs.identity n g' hg', pyEq_absent] at hf
        exact absurd hf (by simp)
      · rw [hw, hs.identity n g' hg'] at hf
        have ht : t.process = g'.owner := pyEq_processIdentity.mp hf
        obtain rfl : w = g'.lease.worker_id := by simpa [WorkerIdLease.path] using hp.symm
        refine ⟨g', hg, i, t, base, count, Nat.lt_succ_self i, hl, ht, hr', hpc,
          fun k hik hki => ?_⟩
        obtain rfl : k = i + 1 := by omega
        rw [hw, ht]
    · obtain rfl : g' = g := Option.some.inj ((hstep.grants_mono hs hg').symm.trans hg)
      rw [hne] at hf
      exact absurd hf (by simp)

/-- **The comparison of a repeated release**: it succeeds if and only if the owner has acquired the
worker id again and the file of that lease stands. -/
theorem reread_iff (hi : i ≤ r.length) {g : Grant} (hg : (r.state i).grants n = some g)
    (hr : (r.state i).released n = true) :
    (readState ((r.state i).files g.lease.path)).pyEq g.lease.identity = true ↔
      Reacquired r i n := by
  refine ⟨reacquired_of_file h0 hi hg hr, ?_⟩
  rintro ⟨g', hg', j, t, base, count, hj, -, -, -, -, hk⟩
  obtain rfl : g' = g := Option.some.inj (hg'.symm.trans hg)
  rw [hk i hj le_rfl, (section_at h0 hi).identity n g' hg]
  exact pyEq_processIdentity.mpr rfl

theorem spared_at
    (hc : ∀ i, i < r.length → ∀ t n, r.label i = .inner t → (r.state i).pc t = .releaseRead n →
      (r.state i).released n = true → ¬ Reacquired r i n)
    (hi : i ≤ r.length) : ∀ t, Spared (r.state i) ((r.state i).pc t) := by
  induction i with
  | zero =>
    intro t
    rw [h0.2.1 t]
    trivial
  | succ i ih =>
    intro u
    have hs := section_at h0 (Nat.le_of_succ_le hi)
    have hstep := r.step_ok i hi
    have hu := ih (Nat.le_of_succ_le hi) u
    by_cases hl : r.label i = .inner u
    · have hstep' : Step (r.state i) (.inner u) (r.state (i + 1)) := hl ▸ hstep
      refine hstep'.own_spared hu fun n g hpc hr hg => ?_
      cases hcmp : (readState ((r.state i).files g.lease.path)).pyEq g.lease.identity with
      | false => rfl
      | true =>
        exact absurd ((reread_iff h0 (Nat.le_of_succ_le hi) hg hr).mp hcmp) (hc i hi u n hl hpc hr)
    · cases hin : ((r.state (i + 1)).pc u).inside with
      | false =>
        revert hin
        cases (r.state (i + 1)).pc u <;> simp [PC.inside, Spared]
      | true =>
        obtain ⟨hpc, -, -, hg, hr⟩ := hstep.other hs hin hl
        rw [hpc]
        revert hu
        cases (r.state i).pc u <;> simp only [Spared, hg, hr] <;> exact id

/-- **Repeated releases.** In a run in which no repeated release reads its file while its owner has
reacquired the worker id, no repeated release changes any lease file. -/
theorem release_idempotent
    (hc : ∀ i, i < r.length → ∀ t n, r.label i = .inner t → (r.state i).pc t = .releaseRead n →
      (r.state i).released n = true → ¬ Reacquired r i n) :
    ∀ i, i < r.length → ∀ t n, r.label i = .inner t → Repeats (r.state i) t n →
      (r.state (i + 1)).files = (r.state i).files := by
  intro i hi t n hl ⟨hrel, hr⟩
  have hstep : Step (r.state i) (.inner t) (r.state (i + 1)) := hl ▸ r.step_ok i hi
  refine hstep.releasing_files hrel fun hpc => ?_
  have hp := spared_at h0 hc hi.le t
  rw [hpc] at hp
  exact absurd (hr.symm.trans hp) (by simp)

/-- **The condition is needed**: a repeated release that reads a reacquired file goes on to remove
it, unless a file operation raises. -/
theorem reacquired_removed (hi : i ≤ r.length) {t : Task} (hpc : (r.state i).pc t = .releaseRead n)
    (hr : (r.state i).released n = true) (ha : Reacquired r i n) :
    ∃ g s₁ s₂ s₃, (r.state i).grants n = some g ∧ Step (r.state i) (.inner t) s₁ ∧
      Step s₁ (.inner t) s₂ ∧ Step s₂ (.inner t) s₃ ∧
      (r.state i).files g.lease.path = .object (processIdentity g.owner) ∧
      s₃.files g.lease.path = .absent := by
  obtain ⟨g, hg, j, _, _, _, hj, _, _, _, _, hk⟩ := id ha
  have hcmp := (reread_iff h0 hi hg hr).mpr ha
  refine ⟨g, _, _, _, hg, .releaseRead _ t n g hpc hg,
    .releaseOurs _ t n g _ (goto_pc_self ..) hg hcmp,
    .releaseUnlink _ t n g (goto_pc_self ..) hg, hk i hj le_rfl, ?_⟩
  simp [State.goto]

end Runs

/-! ### One process releases a lease, acquires the number again and repeats the first release -/

/-- The lease object `oneTask` acquires from the range `{0}`. -/
def oneGrant : Grant := ⟨⟨0, processIdentity ⟨7, 1⟩⟩, ⟨7, 1⟩, 0, 1⟩

section Repeated

variable {R : State → Label → State → Prop}

/-- A process alone in its directory acquires the number `0`. -/
theorem reach_acquire (h : Reachable Init R s)
    (hR : ∀ a l b, a.released = s.released → Step a l b → R a l b)
    (hl : s.os.live t.process = true) (hlock : s.lock = none) (hpc : s.pc t = .idle)
    (hf : s.files (.lease 0) = .absent) :
    Reachable Init R { s with
      files := Function.update s.files (.lease 0) (.object (processIdentity t.process))
      grants := Function.update s.grants s.serial
        (some ⟨⟨0, processIdentity t.process⟩, t.process, 0, 1⟩)
      serial := s.serial + 1 } := by
  have h1 := h.next (hR _ _ _ rfl (.acquire _ t 0 1 hl hpc (by decide)))
  have h2 := h1.next (hR _ _ _ rfl (.acquireEnter _ t 0 1 (by simp) hlock))
  have h3 := h2.next (hR _ _ _ rfl (.acquireRead _ t 0 1 0 [] (by simp; decide)))
  have h4 := h3.next (hR _ _ _ rfl (.acquireDead _ t 0 1 0 [] []
    (by simp [State.goto, hf, readState]) rfl))
  have h5 := h4.next (hR _ _ _ rfl (.acquireWrite _ t 0 1 0 (by simp)))
  have h6 := h5.next (hR _ _ _ rfl (.leave _ t (by simp)))
  convert h6 using 1
  simp [State.goto, hlock, ← hpc]

/-- The owner of lease object `n` calls its `release`, finds its own identity in the file and
removes it. -/
theorem reach_release (h : Reachable Init R s)
    (hR : ∀ a l b, (∀ base count w, a.pc t ≠ .acquireWrite base count w) →
      (l = .release t n ∨ l = .inner t) → Step a l b → R a l b)
    (hl : s.os.live t.process = true) (hlock : s.lock = none) (hpc : s.pc t = .idle)
    (hg : s.grants n = some g) (ho : g.owner = t.process)
    (hid : g.lease.identity = processIdentity t.process)
    (hf : s.files g.lease.path = .object (processIdentity t.process)) :
    let a := { s with
      lock := some t
      callers := Function.update s.callers n (some t) }.goto t (.releaseUnlink n)
    let b := { s with
      files := Function.update s.files g.lease.path .absent
      callers := Function.update s.callers n (some t)
      released := Function.update s.released n true }
    Reachable Init R a ∧ Reachable Init R b := by
  intro a b
  have h1 := h.next (hR _ _ _ (by simp [hpc]) (.inl rfl) (.release _ t n g hl hpc hg ho))
  have h2 := h1.next (hR _ _ _ (by simp) (.inr rfl) (.releaseEnter _ t n (by simp) hlock))
  have h3 := h2.next (hR _ _ _ (by simp) (.inr rfl) (.releaseRead _ t n g (by simp) hg))
  have h4 := h3.next (hR _ _ _ (by simp) (.inr rfl) (.releaseOurs _ t n g
    (processIdentity t.process) (by simp [State.goto, hf, readState]) hg
    (by rw [hid]; exact pyEq_processIdentity.mpr rfl)))
  have ha : Reachable Init R a := by
    convert h4 using 1
    simp [a, State.goto]
  have h5 := ha.next (hR _ _ _ (by simp [a]) (.inr rfl) (.releaseUnlink _ t n g (by simp [a]) hg))
  have h6 := h5.next (hR _ _ _ (by simp) (.inr rfl) (.leave _ t (by simp)))
  refine ⟨ha, ?_⟩
  convert h6 using 1
  simp [a, b, State.goto, hlock, ← hpc]

theorem oneProcess_live : oneProcess.os.live oneTask.process = true := by
  simp [oneProcess, oneTask, Processes.live, Processes.ofList, Processes.spawn]

/-- **A lease acquired afterwards is removed**: a process acquires the number `0`, releases the
lease, acquires the number again, and calls the first lease's `release` once more. -/
theorem repeated_release_removes :
    ∃ (r : Run Step) (i : Nat), Init (r.state 0) ∧ i < r.length ∧ r.label i = .inner oneTask ∧
      Repeats (r.state i) oneTask 0 ∧ Held (r.state i) 1 oneGrant ∧
      (r.state i).files oneGrant.lease.path = .object oneGrant.lease.identity ∧
      (r.state (i + 1)).files oneGrant.lease.path = .absent := by
  have h0 : Reachable Init Step oneProcess := .start ⟨rfl, fun _ => rfl, fun _ => rfl, fun _ => rfl,
    fun _ => rfl⟩
  have h1 := reach_acquire h0 (fun _ _ _ _ h => h) oneProcess_live rfl rfl rfl
  have h2 := (reach_release h1 (n := 0) (g := oneGrant) (fun _ _ _ _ _ h => h) oneProcess_live rfl
    rfl rfl rfl rfl rfl).2
  have h3 := reach_acquire h2 (fun _ _ _ _ h => h) oneProcess_live rfl rfl rfl
  have h4 := (reach_release h3 (n := 0) (g := oneGrant) (fun _ _ _ _ _ h => h) oneProcess_live rfl
    rfl rfl rfl rfl rfl).1
  obtain ⟨r, hr0, hend⟩ := h4.run .os
  have hu := Step.releaseUnlink (r.state r.length) oneTask 0 oneGrant (by rw [hend]; rfl)
    (by rw [hend]; rfl)
  refine ⟨r.snoc hu, r.length, by simpa [Run.snoc] using hr0, Nat.lt_succ_self _,
    by simp [Run.snoc], ?_, ?_, ?_, by simp [Run.snoc, State.goto]⟩ <;>
    simp only [Run.snoc, le_refl, if_true, hend]
  · exact ⟨rfl, rfl⟩
  · exact ⟨rfl, rfl⟩
  · rfl

/-- No lease file is written once a lease has been released. -/
def NoneAfter (s : State) (l : Label) : Prop :=
  ∀ t base count w, l = .inner t → s.pc t = .acquireWrite base count w → ∀ n, s.released n = false

theorem noneAfter_of_pc (h : ∀ base count w, s.pc t ≠ .acquireWrite base count w) :
    NoneAfter s (.inner t) :=
  fun _ base count w hl hw => absurd (Label.inner.inj hl ▸ hw) (h base count w)

/-- A lease is released twice in a row. -/
theorem release_idempotent_twice :
    ∃ (r : Run Step) (i : Nat), Init (r.state 0) ∧ i < r.length ∧ r.label i = .inner oneTask ∧
      Repeats (r.state i) oneTask 0 ∧ (r.state (i + 1)).files = (r.state i).files := by
  have h0 : Reachable Init (fun a l b => Step a l b ∧ NoneAfter a l) oneProcess :=
    .start ⟨rfl, fun _ => rfl, fun _ => rfl, fun _ => rfl, fun _ => rfl⟩
  have h1 := reach_acquire h0 (fun a _ _ hr h => ⟨h, fun _ _ _ _ _ _ n => by rw [hr]; rfl⟩)
    oneProcess_live rfl rfl rfl
  have h2 := (reach_release h1 (n := 0) (g := oneGrant)
    (fun a l b hpc hl h => ⟨h, by
      rcases hl with rfl | rfl
      · exact fun _ _ _ _ hl => absurd hl (by simp)
      · exact noneAfter_of_pc hpc⟩)
    oneProcess_live rfl rfl rfl rfl rfl rfl).2
  have h3 := h2.next
    ⟨.release _ oneTask 0 oneGrant oneProcess_live rfl rfl rfl, by simp [NoneAfter]⟩
  have h4 := h3.next ⟨.releaseEnter _ oneTask 0 (by simp) rfl, noneAfter_of_pc (by simp)⟩
  obtain ⟨r, hr0, hend⟩ := h4.run .os
  have hu := Step.releaseRead (r.state r.length) oneTask 0 oneGrant (by rw [hend]; simp)
    (by rw [hend]; rfl)
  have hn : NoneAfter (r.state r.length) (.inner oneTask) := by
    rw [hend]
    exact noneAfter_of_pc (by simp)
  let r' := r.snoc ⟨hu, hn⟩
  let q : Run Step := r'.map id fun _ _ _ h => h.1
  have hq0 : Init (q.state 0) := by simpa [q, r', Run.map, Run.snoc] using hr0
  have hl : q.label r.length = .inner oneTask := by simp [q, r', Run.map, Run.snoc]
  have hrep : Repeats (q.state r.length) oneTask 0 := by
    simp only [q, r', Run.map, Run.snoc, id, le_refl, if_true, hend]
    exact ⟨rfl, rfl⟩
  refine ⟨q, r.length, hq0, Nat.lt_succ_self _, hl, hrep,
    release_idempotent hq0 ?_ _ (Nat.lt_succ_self _) _ _ hl hrep⟩
  rintro i hi t n - - - ⟨g, -, j, u, base, count, hj, hlj, -, hrj, hpc, -⟩
  have := (r'.step_ok j (hj.trans hi)).2 u base count _ hlj hpc n
  exact absurd (hrj.symm.trans this) (by simp)

end Repeated

end LclFastapi.Runtime.Lease
