import LclFastapi.Verbose.Linearizability
import Mathlib.Tactic.IntervalCases

/-!
# Process caches and observations of the file-verbose target

What one process sees of the shared target (`verbose/control.py`): its cache moves forward only and
always holds a value the target had, and so does its published observation, although `refresh`
reads the target outside every lock and `update` stores into the cache without a comparison.

* The refreshes of the process are serialized (`Serial`): `__init__`, then the owner's sampling
  cycle. Updates come from any threads and processes.
* `cache_step`, `observation_step` and `held_step` say once what a step can do to a cache, to the
  observation files and to the value a refresh carries.
* `Past` is the history of a cached or published value, `Ordered` the order between the published
  value, the one about to be published and the cache.
* **`caches_coherent`** is the result.
-/

namespace LclFastapi.Verbose

open Lib (Identity Processes Task Run)
open LclFastapi.Runtime (Record Stored Value processIdentity)
open Register (Later)

variable {sid : String} {s s' : State} {l : Label} {t u : Task} {a b c d : FileVerboseState}
  {id : Identity}

/-! ## Observations -/

/-- `logging-observations/{pid}.json` is a receipt of `c` by the process `id`. -/
def Published (sid : String) (id : Identity) (s : State) (c : FileVerboseState) : Prop :=
  ∃ role observed_at, s.observations id.pid = .object (observationRecord id sid role c observed_at)

/-- A receipt names its process and its value. -/
theorem observationRecord_inj {id' : Identity} {role role' : String} {x y : ℚ}
    (h : observationRecord id sid role c x = observationRecord id' sid role' d y) :
    id = id' ∧ c = d := by
  obtain ⟨pid, created⟩ := id
  obtain ⟨pid', created'⟩ := id'
  obtain ⟨enabled, revision⟩ := c
  obtain ⟨enabled', revision'⟩ := d
  simp only [observationRecord, processIdentity, List.cons_append, List.nil_append,
    List.cons.injEq, Prod.mk.injEq, Value.int.injEq, Value.float.injEq, Value.bool.injEq,
    true_and, Nat.cast_inj] at h
  obtain ⟨rfl, rfl, -, rfl, rfl, -⟩ := h
  exact ⟨rfl, rfl⟩

theorem Published.unique (h : Published sid id s c) (h' : Published sid id s d) : c = d := by
  obtain ⟨role, x, h⟩ := h
  obtain ⟨role', y, h'⟩ := h'
  rw [h] at h'
  exact (observationRecord_inj (Stored.object.inj h')).2

/-- A published target, and no receipt of this start, whose `service_id` is fresh. -/
structure Fresh (sid : String) (s : State) : Prop where
  init : Init sid s
  unobserved : ∀ id c, ¬ Published sid id s c

/-! ## What one step does -/

/-- Between entering and leaving `refresh` (or the `__init__` that runs it). -/
def PC.refreshing : PC → Bool
  | .initRead | .refreshRead | .observeCache _ | .observePublish _ => true
  | _ => false

/-- A cache changes at three points: `__init__`'s read, `observe` and the end of an update. -/
theorem cache_step (h : Step sid s l s') (id : Identity) :
    s'.cache id = s.cache id ∨
      (∃ c, readTarget sid s.target = some c ∧ s'.cache id = some c) ∨
      (∃ state c, s.cache id = some c ∧ s'.cache id = some (observed c state) ∧
        ∃ t, s.pc t = .observeCache state) ∨
      ∃ t state, s.pc t = .updateStore state ∧ s'.cache id = some state := by
  cases h with
  | initRead t state hpc hread =>
    by_cases hid : id = t.process
    · subst hid
      exact .inr (.inl ⟨state, hread, by simp [State.goto]⟩)
    · exact .inl (by simp [State.goto, hid])
  | observeCache t state c hpc hc =>
    by_cases hid : id = t.process
    · subst hid
      exact .inr (.inr (.inl ⟨state, c, hc, by simp [State.goto], t, hpc⟩))
    · exact .inl (by simp [State.goto, hid])
  | updateStore t state hpc =>
    by_cases hid : id = t.process
    · subst hid
      exact .inr (.inr (.inr ⟨t, state, hpc, by simp [State.goto]⟩))
    · exact .inl (by simp [State.goto, hid])
  | _ => exact .inl rfl

/-- Only the last step of `observe` writes an observation file, the one of its own pid. -/
theorem observation_step (h : Step sid s l s') :
    s'.observations = s.observations ∨
      ∃ t current role observed_at, l = .refresh t ∧ s.pc t = .observePublish current ∧
        s'.cache = s.cache ∧ s'.os = s.os ∧ s'.observations =
          Function.update s.observations t.process.pid
            (.object (observationRecord t.process sid role current observed_at)) := by
  cases h with
  | observePublish t current role x hpc =>
    exact .inr ⟨t, current, role, x, rfl, hpc, rfl, rfl, rfl⟩
  | _ => exact .inl rfl

/-- After a step of `u`, another thread is where it was. -/
theorem goto_pc_cases {pc x : PC} (h : (s.goto u pc).pc t = x) :
    (t = u ∧ pc = x) ∨ (t ≠ u ∧ s.pc t = x) := by
  by_cases htu : t = u
  · subst htu
    rw [goto_pc, Function.update_self] at h
    exact .inl ⟨rfl, h⟩
  · rw [goto_pc, Function.update_of_ne htu] at h
    exact .inr ⟨htu, h⟩

theorem withOs_pc_cases {q : Processes} {x : PC} (h : (s.withOs q).pc t = x) (hx : x ≠ .idle) :
    q.live t.process = true ∧ s.pc t = x := by
  have h' : (if q.live t.process then s.pc t else .idle) = x := h
  split at h'
  · exact ⟨‹_›, h'⟩
  · exact absurd h'.symm hx

/-- A value on its way into the cache was just read from the target. -/
theorem observeCache_step (h : Step sid s l s') (ht : s'.pc t = .observeCache a) :
    s.pc t = .observeCache a ∨ readTarget sid s.target = some a := by
  cases h with
  | os q hq => exact .inl (withOs_pc_cases ht nofun).2
  | refreshRead u state hpc hread =>
    rcases goto_pc_cases ht with ⟨-, h⟩ | ⟨-, h⟩
    · exact .inr (PC.observeCache.inj h ▸ hread)
    · exact .inl h
  | updateCheck u enabled state c hpc hc hrev =>
    rcases goto_pc_cases ht with ⟨-, h⟩ | ⟨-, h⟩
    · split at h <;> exact absurd h nofun
    · exact .inl h
  | _ =>
    rcases goto_pc_cases ht with ⟨-, h⟩ | ⟨-, h⟩
    · exact absurd h nofun
    · exact .inl h

/-- A value about to be published is what `observe` left in the cache. -/
theorem observePublish_step (h : Step sid s l s') (ht : s'.pc t = .observePublish a) :
    s.pc t = .observePublish a ∨
      ∃ v c, s.pc t = .observeCache v ∧ s.cache t.process = some c ∧ a = observed c v ∧
        s'.cache t.process = some a ∧ s'.observations = s.observations := by
  cases h with
  | os q hq => exact .inl (withOs_pc_cases ht nofun).2
  | observeCache u state c hpc hc =>
    rcases goto_pc_cases ht with ⟨rfl, h⟩ | ⟨-, h⟩
    · obtain rfl := PC.observePublish.inj h
      exact .inr ⟨state, c, hpc, hc, rfl, by simp [State.goto], rfl⟩
    · exact .inl h
  | updateCheck u enabled state c hpc hc hrev =>
    rcases goto_pc_cases ht with ⟨-, h⟩ | ⟨-, h⟩
    · split at h <;> cases h
    · exact .inl h
  | _ =>
    rcases goto_pc_cases ht with ⟨-, h⟩ | ⟨-, h⟩
    · cases h
    · exact .inl h

/-! ## The cache moves forward -/

theorem observed_ge_left (c state : FileVerboseState) :
    c.revision ≤ (observed c state).revision := by
  unfold observed
  split
  · assumption
  · exact Nat.le_refl _

theorem observed_eq (c state : FileVerboseState) :
    observed c state = c ∨ observed c state = state := by
  unfold observed
  split
  · exact .inr rfl
  · exact .inl rfl

/-- **No step rolls a cache back**, the unconditional assignments included: they store the
current target. -/
theorem cache_mono (hi : Inv sid s a) (h : Step sid s l s') (hc : s.cache id = some c) :
    ∃ d, s'.cache id = some d ∧ c.revision ≤ d.revision := by
  have hca := (hi.cached id c hc).revision_le
  rcases cache_step h id with he | ⟨d, hread, he⟩ | ⟨state, d, hd, he, -⟩ | ⟨t, state, hpc, he⟩
  · exact ⟨c, he.trans hc, Nat.le_refl _⟩
  · obtain rfl := hi.reads.unique hread
    exact ⟨_, he, hca⟩
  · obtain rfl := Option.some.inj (hc.symm.trans hd)
    exact ⟨_, he, observed_ge_left c state⟩
  · obtain ⟨-, rfl⟩ := hi.here hpc
    exact ⟨_, he, hca⟩

/-! ## Live callers -/

theorem seen_step (h : Step sid s l s') (hid : id ∈ s.os.seen) : id ∈ s'.os.seen := by
  cases h with
  | os q hq => exact hq.seen_mono hid
  | _ => exact hid

theorem dead_step (h : Step sid s l s') (hid : id ∈ s.os.seen) (hd : s.os.live id = false) :
    s'.os.live id = false := by
  cases h with
  | os q hq => exact hq.dead_stays hid hd
  | _ => exact hd

/-- Only live processes are inside a call. -/
def Alive (s : State) : Prop := ∀ t, s.pc t ≠ .idle → s.os.live t.process = true

/-- A thread that takes a step is live. -/
theorem live_of_task (hv : Alive s) (h : Step sid s l s') (ht : l.task = some t) :
    s.os.live t.process = true ∧ s'.os = s.os := by
  have busy {u : Task} {pc : PC} (hu : some u = some t) (hpc : s.pc u = pc) (hne : pc ≠ .idle) :
      s.os.live t.process = true := Option.some.inj hu ▸ hv u (hpc ▸ hne)
  cases h with
  | os => exact absurd ht nofun
  | init u hl | refresh u _ hl | call u _ _ hl | callInvalid u _ hl =>
    exact ⟨Option.some.inj ht ▸ hl, rfl⟩
  | refreshFail u hpc =>
    rcases hpc with hpc | hpc | ⟨c, hpc⟩ <;> exact ⟨busy ht hpc nofun, rfl⟩
  | updateFail u hpc =>
    rcases hpc with ⟨e, hpc⟩ | ⟨state, hpc⟩ <;> exact ⟨busy ht hpc nofun, rfl⟩
  | _ =>
    have hpc := ‹s.pc _ = _›
    exact ⟨busy ht hpc nofun, rfl⟩

theorem alive_step (hv : Alive s) (h : Step sid s l s') : Alive s' := by
  intro t ht
  by_cases htask : l.task = some t
  · obtain ⟨hl, hos⟩ := live_of_task hv h htask
    rw [hos]
    exact hl
  · rcases pc_of_other h htask with ⟨hpc, hos⟩ | ⟨q, -, hos, hpc⟩
    · rw [hos]
      exact hv t (hpc ▸ ht)
    · rw [hpc] at ht
      rw [hos]
      split at ht
      · assumption
      · exact absurd rfl ht

/-! ## The order of cache and receipt -/

/-- At most one refresh of the process `id` is under way. -/
def Serial (id : Identity) (s : State) : Prop :=
  ∀ t u, t.process = id → u.process = id → (s.pc t).refreshing = true →
    (s.pc u).refreshing = true → t = u

/-- What is published is not ahead of what is about to be published, nor that of the cache. -/
structure Ordered (sid : String) (id : Identity) (s : State) : Prop where
  alive : Alive s
  seen : ∀ c, Published sid id s c → id ∈ s.os.seen
  published : ∀ d, Published sid id s d → ∃ c, s.cache id = some c ∧ d.revision ≤ c.revision
  publishing : ∀ t current, t.process = id → s.pc t = .observePublish current →
    (∃ c, s.cache id = some c ∧ current.revision ≤ c.revision) ∧
      ∀ d, Published sid id s d → d.revision ≤ current.revision

/-- A receipt of `id` after a step was there before, or a thread of `id` has just written it. -/
theorem published_step (hv : Alive s) (h : Step sid s l s') (hd : Published sid id s' d) :
    Published sid id s d ∨ ∃ t, t.process = id ∧ s.pc t = .observePublish d ∧ s'.cache = s.cache ∧
      s.os.live id = true ∧ s'.os = s.os := by
  obtain ⟨role', x', hd⟩ := hd
  rcases observation_step h with he | ⟨t, current, role, x, -, hpc, hcache, hos, he⟩
  · exact .inl ⟨role', x', by rw [← he]; exact hd⟩
  · rw [he] at hd
    by_cases hpid : id.pid = t.process.pid
    · rw [hpid, Function.update_self] at hd
      obtain ⟨hid, rfl⟩ := observationRecord_inj (Stored.object.inj hd)
      exact .inr ⟨t, hid, hpc, hcache, hid ▸ hv t (by rw [hpc]; exact nofun), hos⟩
    · rw [Function.update_of_ne hpid] at hd
      exact .inl ⟨role', x', hd⟩

theorem Ordered.step (ho : Ordered sid id s) (hi : Inv sid s a) (hs : Serial id s)
    (h : Step sid s l s') : Ordered sid id s' := by
  have hv' := alive_step ho.alive h
  refine ⟨hv', fun c hc => ?_, fun d hd => ?_, fun t current ht hpc => ?_⟩
  · rcases published_step ho.alive h hc with hc | ⟨t, -, -, -, hl, hos⟩
    · exact seen_step h (ho.seen c hc)
    · rw [hos]
      exact Processes.seen_of_live hl
  · rcases published_step ho.alive h hd with hd | ⟨t, ht, hpc, hcache, -, -⟩
    · obtain ⟨c, hc, hdc⟩ := ho.published d hd
      obtain ⟨c', hc', hcc⟩ := cache_mono hi h hc
      exact ⟨c', hc', hdc.trans hcc⟩
    · rw [hcache]
      exact (ho.publishing t d ht hpc).1
  · rcases observePublish_step h hpc with hold | ⟨v, c, hold, hc, rfl, hc', hobs⟩
    · obtain ⟨⟨c, hc, hcur⟩, hpub⟩ := ho.publishing t current ht hold
      obtain ⟨c', hc', hcc⟩ := cache_mono hi h hc
      refine ⟨⟨c', hc', hcur.trans hcc⟩, fun d hd => ?_⟩
      rcases published_step ho.alive h hd with hd | ⟨u, hu, hpcu, -, -, -⟩
      · exact hpub d hd
      · -- the other publication would be a second refresh of the process
        obtain rfl := hs t u ht hu (by rw [hold]; rfl) (by rw [hpcu]; rfl)
        exact le_of_eq (congrArg _ (PC.observePublish.inj (hpcu.symm.trans hold)))
    · subst ht
      refine ⟨⟨_, hc', Nat.le_refl _⟩, fun d hd => ?_⟩
      obtain ⟨role, x, hd⟩ := hd
      rw [hobs] at hd
      obtain ⟨c', hcache, hdc⟩ := ho.published d ⟨role, x, hd⟩
      obtain rfl := Option.some.inj (hc.symm.trans hcache)
      exact hdc.trans (observed_ge_left c v)

/-! ## Along a run -/

section Runs

variable {r : Run (Step sid)} {i j : Nat}

/-- The target held `c` at this moment or an earlier one. -/
def Past (r : Run (Step sid)) (i : Nat) (c : FileVerboseState) : Prop :=
  ∃ k, k ≤ i ∧ Reads sid (r.state k) c

theorem Past.next (h : Past r i c) : Past r (i + 1) c := by
  obtain ⟨k, hk, hc⟩ := h
  exact ⟨k, Nat.le_succ_of_le hk, hc⟩

/-- Every cached, carried or published value has a past. -/
structure History (r : Run (Step sid)) (i : Nat) : Prop where
  alive : Alive (r.state i)
  cached : ∀ id c, (r.state i).cache id = some c → Past r i c
  carried : ∀ t c, (r.state i).pc t = .observeCache c ∨ (r.state i).pc t = .observePublish c →
    Past r i c
  published : ∀ id c, Published sid id (r.state i) c → Past r i c

theorem History.next (hh : History r i) (hi : i < r.length) (hinv : Inv sid (r.state i) a) :
    History r (i + 1) := by
  have hstep := r.step_ok i hi
  have fresh {c : FileVerboseState} (h : readTarget sid (r.state i).target = some c) :
      Past r (i + 1) c :=
    ⟨i, Nat.le_succ i, hinv.reads.unique h ▸ hinv.reads⟩
  have kept {c v : FileVerboseState} {id : Identity} (hc : (r.state i).cache id = some c)
      (hv : ∃ t, (r.state i).pc t = .observeCache v) : Past r i (observed c v) := by
    obtain ⟨t, ht⟩ := hv
    rcases observed_eq c v with h | h <;> rw [h]
    · exact hh.cached id c hc
    · exact hh.carried t v (.inl ht)
  refine ⟨alive_step hh.alive hstep, fun id c hc => ?_, fun t c ht => ?_, fun id c hc => ?_⟩
  · rcases cache_step hstep id with he | ⟨d, hread, he⟩ | ⟨v, d, hd, he, hv⟩ | ⟨t, d, hpc, he⟩ <;>
      rw [he] at hc
    · exact (hh.cached id c hc).next
    · exact Option.some.inj hc ▸ fresh hread
    · exact Option.some.inj hc ▸ (kept hd hv).next
    · obtain ⟨-, rfl⟩ : At (r.state i) a t (.updateStore d) := hpc ▸ hinv.at_pc t
      exact Option.some.inj hc ▸ fresh hinv.reads.read
  · rcases ht with ht | ht
    · rcases observeCache_step hstep ht with h | h
      · exact (hh.carried t c (.inl h)).next
      · exact fresh h
    · rcases observePublish_step hstep ht with h | ⟨v, d, hv, hd, rfl, -, -⟩
      · exact (hh.carried t c (.inr h)).next
      · exact (kept hd ⟨t, hv⟩).next
  · rcases published_step hh.alive hstep hc with h | ⟨t, -, hpc, -, -, -⟩
    · exact (hh.published id c h).next
    · exact (hh.carried t c (.inr hpc)).next

theorem history (h0 : Fresh sid (r.state 0)) : ∀ i, i ≤ r.length → History r i
  | 0, _ => by
    obtain ⟨-, -, hcache, hpc⟩ := h0.init
    refine ⟨fun t h => absurd (hpc t) h, fun id c h => ?_, fun t c h => ?_, fun id c h => ?_⟩
    · exact absurd ((hcache id).symm.trans h) nofun
    · rcases h with h | h <;> exact absurd ((hpc t).symm.trans h) nofun
    · exact absurd h (h0.unobserved id c)
  | i + 1, hi => by
    obtain ⟨a, ha⟩ := Run.inv h0.init (Nat.le_of_succ_le hi)
    exact (history h0 i (Nat.le_of_succ_le hi)).next hi ha

/-- A cache, once there, never goes back. -/
theorem cache_mono_run (h0 : Fresh sid (r.state 0)) (hij : i ≤ j) (hj : j ≤ r.length)
    (hc : (r.state i).cache id = some c) :
    ∃ d, (r.state j).cache id = some d ∧ c.revision ≤ d.revision := by
  have hstay := r.stays
    (P := fun s => (∃ a, Inv sid s a) ∧ ∃ d, s.cache id = some d ∧ c.revision ≤ d.revision)
    (fun _ _ _ hst ⟨⟨a, ha⟩, d, hd, hcd⟩ => by
      obtain ⟨b, hb, -⟩ := inv_step ha hst
      obtain ⟨e, he, hde⟩ := cache_mono ha hst hd
      exact ⟨⟨b, hb⟩, e, he, hcd.trans hde⟩) hij hj
    ⟨Run.inv h0.init (hij.trans hj), c, hc, Nat.le_refl _⟩
  exact hstay.2

theorem ordered (h0 : Fresh sid (r.state 0))
    (hs : ∀ i, i ≤ r.length → Serial id (r.state i)) :
    ∀ i, i ≤ r.length → Ordered sid id (r.state i)
  | 0, hi => by
    refine ⟨(history h0 0 hi).alive, fun c h => absurd h (h0.unobserved id c),
      fun c h => absurd h (h0.unobserved id c), fun t c _ h => ?_⟩
    exact absurd ((h0.init.2.2.2 t).symm.trans h) nofun
  | i + 1, hi => by
    obtain ⟨a, ha⟩ := Run.inv h0.init (Nat.le_of_succ_le hi)
    exact (ordered h0 hs i (Nat.le_of_succ_le hi)).step ha (hs i (Nat.le_of_succ_le hi))
      (r.step_ok i hi)

/-- A receipt is replaced by later ones of the same process only, as long as the process lives;
after its death there are no later ones. -/
theorem published_mono (h0 : Fresh sid (r.state 0))
    (hs : ∀ i, i ≤ r.length → Serial id (r.state i)) (hij : i ≤ j) (hj : j ≤ r.length)
    (hc : Published sid id (r.state i) c) :
    (∃ d, Published sid id (r.state j) d ∧ c.revision ≤ d.revision) ∨
      ((r.state j).os.live id = false ∧ id ∈ (r.state j).os.seen ∧
        ∀ d, ¬ Published sid id (r.state j) d) := by
  induction j, hij using Nat.le_induction with
  | base => exact .inl ⟨c, hc, Nat.le_refl _⟩
  | succ j hij ih =>
    have hle := Nat.le_of_succ_le hj
    have ho := ordered h0 hs j hle
    have hstep := r.step_ok j hj
    rcases ih hle with ⟨d, hd, hcd⟩ | ⟨hdead, hseen, hno⟩
    · rcases observation_step hstep with he | ⟨t, current, role, x, -, hpc, -, hos, he⟩
      · obtain ⟨role, x, hd⟩ := hd
        exact .inl ⟨d, ⟨role, x, by rw [he]; exact hd⟩, hcd⟩
      · have hlive := ho.alive t (by rw [hpc]; exact nofun)
        by_cases hpid : id.pid = t.process.pid
        · by_cases hid : t.process = id
          · have hdc := (ho.publishing t current hid hpc).2 d hd
            refine .inl ⟨current, ⟨role, x, ?_⟩, hcd.trans hdc⟩
            rw [he, hid, Function.update_self]
          · -- the pid is in use by a later process
            have hdead : (r.state j).os.live id = false := by
              cases hl : (r.state j).os.live id with
              | false => rfl
              | true => exact absurd (Processes.live_unique hlive hl hpid.symm) hid
            refine .inr ⟨by rw [hos]; exact hdead, by rw [hos]; exact ho.seen d hd, fun e h => ?_⟩
            obtain ⟨role', y, h⟩ := h
            rw [he, hpid, Function.update_self] at h
            exact hid (observationRecord_inj (Stored.object.inj h)).1
        · obtain ⟨role', y, hd⟩ := hd
          refine .inl ⟨d, ⟨role', y, ?_⟩, hcd⟩
          rw [he, Function.update_of_ne hpid]
          exact hd
    · refine .inr ⟨?_, seen_step hstep hseen, fun e h => ?_⟩
      · exact dead_step hstep hseen hdead
      · rcases published_step ho.alive hstep h with h | ⟨t, -, -, -, hl, -⟩
        · exact hno e h
        · exact absurd (hdead.symm.trans hl) nofun

/-- The refresh that `t` has begun by step `i` fails at step `j` in reading the target. -/
structure ReadFails (r : Run (Step sid)) (i j : Nat) (t : Task) : Prop where
  lt : j < r.length
  reading : ∀ m, i ≤ m → m ≤ j → (r.state m).pc t = .refreshRead
  fails : r.label j = .refresh t
  ended : (r.state (j + 1)).pc t = .idle

/-- The step that ends or fails the read of a refresh changes nothing shared. -/
theorem read_step (h : Step sid s l s') (htask : l.task = some t) (hpc : s.pc t = .refreshRead) :
    s'.cache = s.cache ∧ s'.observations = s.observations ∧ s'.target = s.target := by
  have off {pc : PC} (h : s.pc t = pc) (hne : pc ≠ .refreshRead) : False := hne (h.symm.trans hpc)
  clear hpc
  cases h with
  | os => exact absurd htask nofun
  | refreshRead | refreshFail => exact ⟨rfl, rfl, rfl⟩
  | updateFail u hu =>
    obtain rfl := Option.some.inj htask
    rcases hu with ⟨e, hu⟩ | ⟨state, hu⟩ <;> exact (off hu nofun).elim
  | _ =>
    obtain rfl := Option.some.inj htask
    have hu := ‹s.pc _ = _›
    exact (off hu nofun).elim

theorem ReadFails.unchanged (h : ReadFails r i j t) {m : Nat} (him : i ≤ m) (hmj : m ≤ j)
    (htask : (r.label m).task = some t) : (r.state (m + 1)).cache = (r.state m).cache ∧
      (r.state (m + 1)).observations = (r.state m).observations := by
  have hm : m < r.length := lt_of_le_of_lt hmj h.lt
  obtain ⟨hc, ho, -⟩ := read_step (r.step_ok m hm) htask (h.reading m him hmj)
  exact ⟨hc, ho⟩

end Runs

/-- What a run of the service guarantees of the cache and the receipt of one process. -/
structure Coherent (r : Run (Step sid)) (id : Identity) : Prop where
  /-- The cached revision never decreases. -/
  cache_mono : ∀ i j c, i ≤ j → j ≤ r.length → (r.state i).cache id = some c →
    ∃ d, (r.state j).cache id = some d ∧ c.revision ≤ d.revision
  cache_le : ∀ i c a, i ≤ r.length → (r.state i).cache id = some c → Reads sid (r.state i) a →
    c.revision ≤ a.revision
  /-- The cached pair was the target. -/
  cache_past : ∀ i c, i ≤ r.length → (r.state i).cache id = some c → Past r i c
  agree : ∀ i j c a, i ≤ r.length → j ≤ r.length → (r.state i).cache id = some c →
    Reads sid (r.state j) a → c.revision = a.revision → c.enabled = a.enabled
  /-- The published revision never decreases. -/
  receipt_mono : ∀ i j c d, i ≤ j → j ≤ r.length → Published sid id (r.state i) c →
    Published sid id (r.state j) d → c.revision ≤ d.revision
  /-- A receipt stays until a newer one of the live process replaces it. -/
  receipt_kept : ∀ i j c, i ≤ j → j ≤ r.length → Published sid id (r.state i) c →
    (r.state j).os.live id = true → ∃ d, Published sid id (r.state j) d
  receipt_le : ∀ i c a, i ≤ r.length → Published sid id (r.state i) c → Reads sid (r.state i) a →
    c.revision ≤ a.revision
  receipt_past : ∀ i c, i ≤ r.length → Published sid id (r.state i) c → Past r i c
  /-- A refresh that fails to read the target leaves cache and receipt alone. -/
  failure : ∀ i j t m, ReadFails r i j t → t.process = id → i ≤ m → m ≤ j →
    (r.label m).task = some t → (r.state (m + 1)).cache id = (r.state m).cache id ∧
      (r.state (m + 1)).observations id.pid = (r.state m).observations id.pid

/-- **The caches and receipts of a process are coherent with the shared target**, for any
interleaving of its serialized refreshes with updates by its other threads and other processes. -/
theorem caches_coherent (r : Run (Step sid)) (id : Identity) (h0 : Fresh sid (r.state 0))
    (hs : ∀ i, i ≤ r.length → Serial id (r.state i)) : Coherent r id where
  cache_mono i j c hij hj hc := cache_mono_run h0 hij hj hc
  cache_le i c a hi hc ha := by
    obtain ⟨b, hb⟩ := Run.inv h0.init hi
    obtain rfl := hb.reads.unique ha.read
    exact (hb.cached id c hc).revision_le
  cache_past i c hi hc := (history h0 i hi).cached id c hc
  agree i j c a hi hj hc ha hrev := by
    obtain ⟨k, hk, hck⟩ := (history h0 i hi).cached id c hc
    rcases Nat.le_total k j with hkj | hjk
    · rw [(later_of_le h0.init hkj hj hck ha).eq_of_revision hrev]
    · rw [(later_of_le h0.init hjk (hk.trans hi) ha hck).eq_of_revision hrev.symm]
  receipt_mono i j c d hij hj hc hd := by
    rcases published_mono h0 hs hij hj hc with ⟨e, he, hce⟩ | ⟨-, -, hno⟩
    · exact hd.unique he ▸ hce
    · exact absurd hd (hno d)
  receipt_kept i j c hij hj hc hl := by
    rcases published_mono h0 hs hij hj hc with ⟨d, hd, -⟩ | ⟨hdead, -, -⟩
    · exact ⟨d, hd⟩
    · exact absurd (hdead.symm.trans hl) nofun
  receipt_le i c a hi hc ha := by
    obtain ⟨b, hb⟩ := Run.inv h0.init hi
    obtain rfl := hb.reads.unique ha.read
    obtain ⟨d, hd, hcd⟩ := (ordered h0 hs i hi).published c hc
    exact hcd.trans (hb.cached id d hd).revision_le
  receipt_past i c hi hc := (history h0 i hi).published id c hc
  failure i j t m h hid him hmj htask := by
    obtain ⟨hc, ho⟩ := h.unchanged him hmj htask
    exact ⟨by rw [hc], by rw [ho]⟩

/-! ## A process with an owner thread -/

/-- A thread enters a refresh by a step of its own. -/
theorem refreshing_step (h : Step sid s l s') (ht : (s'.pc t).refreshing = true) :
    (s.pc t).refreshing = true ∨ l = .refresh t := by
  by_cases htask : l.task = some t
  · cases h with
    | os => exact absurd htask nofun
    | init | initRead | refresh | refreshRead | observeCache | observePublish | refreshFail =>
      exact .inr (by rw [Option.some.inj htask])
    | updateCheck u enabled state =>
      obtain rfl := Option.some.inj htask
      rw [goto_pc, Function.update_self] at ht
      split at ht <;> exact absurd ht nofun
    | _ =>
      obtain rfl := Option.some.inj htask
      rw [goto_pc, Function.update_self] at ht
      exact absurd ht nofun
  · rcases pc_of_other h htask with ⟨he, -⟩ | ⟨q, -, -, he⟩
    · exact .inl (he ▸ ht)
    · rw [he] at ht
      split at ht
      · exact .inl ht
      · exact absurd ht nofun

/-- The refreshes of a process that one thread runs are serialized. -/
theorem serial_of_owner {r : Run (Step sid)} {owner : Task} (h0 : Init sid (r.state 0))
    (ho : ∀ i t, i < r.length → r.label i = .refresh t → t.process = id → t = owner) :
    ∀ i, i ≤ r.length → Serial id (r.state i) := by
  have hown : ∀ i, i ≤ r.length → ∀ t, t.process = id → ((r.state i).pc t).refreshing = true →
      t = owner := by
    intro i
    induction i with
    | zero =>
      intro _ t _ ht
      rw [h0.2.2.2 t] at ht
      exact absurd ht nofun
    | succ i ih =>
      intro hi t hid ht
      rcases refreshing_step (r.step_ok i hi) ht with h | h
      · exact ih (Nat.le_of_succ_le hi) t hid h
      · exact ho i t hi h hid
  intro i hi t u ht hu hrt hru
  rw [hown i hi t ht hrt, hown i hi u hu hru]

/-- A second thread switches the file on while the owner of the control refreshes: the refresh that
read the old target publishes the new one. -/
def overtaken : Run (Step "service") :=
  let owner : Task := ⟨⟨1, 0⟩, 0⟩
  let t : Task := ⟨⟨1, 0⟩, 1⟩
  let r := loaded.snoc (.refresh _ owner ⟨false, 0⟩ rfl rfl rfl)
  let r := r.snoc (.refreshRead _ owner ⟨false, 0⟩ rfl (readTarget_targetRecord ..))
  let r := r.snoc (.call _ t true ⟨false, 0⟩ rfl rfl rfl)
  let r := r.snoc (.enter _ t true rfl rfl)
  let r := r.snoc (.updateRead _ t true ⟨false, 0⟩ rfl (readTarget_targetRecord ..))
  let r := r.snoc (.updateCheck _ t true ⟨false, 0⟩ ⟨false, 0⟩ rfl rfl (Nat.le_refl 0))
  let r := r.snoc (.updateWrite _ t ⟨true, 1⟩ rfl)
  let r := r.snoc (.updateStore _ t ⟨true, 1⟩ rfl)
  let r := r.snoc (.observeCache _ owner ⟨false, 0⟩ ⟨true, 1⟩ rfl rfl)
  r.snoc (.observePublish _ owner ⟨true, 1⟩ "api" 1 rfl)

theorem caches_coherent_overtaken :
    Published "service" ⟨1, 0⟩ (overtaken.state 15) ⟨true, 1⟩ ∧ Coherent overtaken ⟨1, 0⟩ := by
  have h0 : Fresh "service" (overtaken.state 0) :=
    ⟨⟨⟨⟨false, 0⟩, rfl⟩, rfl, fun _ => rfl, fun _ => rfl⟩, fun _ _ ⟨_, _, h⟩ => absurd h nofun⟩
  have ho : ∀ i, i < overtaken.length → ∀ t, overtaken.label i = .refresh t →
      t = ⟨⟨1, 0⟩, 0⟩ := by
    have hl : overtaken.length = 15 := rfl
    intro i hi t h
    rw [hl] at hi
    interval_cases i <;> first | exact (Label.refresh.inj h).symm | exact absurd h nofun
  exact ⟨⟨"api", 1, rfl⟩, caches_coherent overtaken ⟨1, 0⟩ h0
    (serial_of_owner h0.init fun i t hi h _ => ho i hi t h)⟩

end LclFastapi.Verbose
