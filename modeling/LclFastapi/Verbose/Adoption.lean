import LclFastapi.Verbose.Caches
import LclFastapi.Verbose.Policy

/-!
# Which target an execution adopts (`verbose/control.py`, `verbose/policy.py`)

A request, an attempt of a Worker and the lifespan pin the value their process has cached when they
enter `use_service_verbose`. While updates and refreshes of all processes interleave with them:

* an update that has returned reaches the executions that its own process enters afterwards, and
  those of another process from the next refresh of that process on, even where the receipt of the
  refresh cannot be published;
* what is reached is not lost again: a later execution of a process, in whatever thread, adopts the
  same change of the target or a later one.

`Later a c` of `Control.lean` says that `c` is what further updates have made of `a`.

**`policies_adopted`**: these, with the decision of the file sinks that follows from them. The
refreshes of a process need no order here.
-/

namespace LclFastapi.Verbose

open Lib (Identity Task Run)
open LclFastapi.Runtime (Value)
open Register (Later)

variable {sid : String} {s s' : State} {l : Label} {t u : Task} {a b c d : FileVerboseState}
  {id : Identity}

/-! ## What one step does -/

/-- Only the call of `__init__` leads to its first read. -/
theorem initRead_step (h : Step sid s l s') (ht : s'.pc t = .initRead) :
    s.pc t = .initRead ∨ s.pc t = .idle := by
  cases h with
  | os q hq => exact .inl (withOs_pc_cases ht nofun).2
  | init u hl hpc hnew =>
    rcases goto_pc_cases ht with ⟨rfl, -⟩ | ⟨-, h⟩
    · exact .inr hpc
    · exact .inl h
  | updateCheck u enabled state c hpc hc hrev =>
    rcases goto_pc_cases ht with ⟨-, h⟩ | ⟨-, h⟩
    · split at h <;> exact absurd h nofun
    · exact .inl h
  | _ =>
    rcases goto_pc_cases ht with ⟨-, h⟩ | ⟨-, h⟩
    · exact absurd h nofun
    · exact .inl h

/-- An update is about to return what it has just stored in the cache. -/
theorem updateReturn_step (h : Step sid s l s') (ht : s'.pc t = .updateReturn a) :
    s.pc t = .updateReturn a ∨ s'.cache t.process = some a := by
  cases h with
  | os q hq => exact .inl (withOs_pc_cases ht nofun).2
  | updateStore u state hpc =>
    rcases goto_pc_cases ht with ⟨rfl, h⟩ | ⟨-, h⟩
    · obtain rfl := PC.updateReturn.inj h
      exact .inr (by simp [State.goto])
    · exact .inl h
  | updateCheck u enabled state c hpc hc hrev =>
    rcases goto_pc_cases ht with ⟨-, h⟩ | ⟨-, h⟩
    · split at h <;> cases h
    · exact .inl h
  | _ =>
    rcases goto_pc_cases ht with ⟨-, h⟩ | ⟨-, h⟩
    · cases h
    · exact .inl h

/-- The cache of `id` holds the revision of `a` or a later one. -/
def Cached (id : Identity) (a : FileVerboseState) (s : State) : Prop :=
  ∃ c, s.cache id = some c ∧ a.revision ≤ c.revision

theorem Cached.step (hc : Cached id a s) (hi : Inv sid s b) (h : Step sid s l s') :
    Cached id a s' := by
  obtain ⟨c, hc, hac⟩ := hc
  obtain ⟨d, hd, hcd⟩ := cache_mono hi h hc
  exact ⟨d, hd, hac.trans hcd⟩

/-! ## Along a run -/

section Runs

variable {r : Run (Step sid)} {i j k m n : Nat} {v : Value}

theorem Cached.stays (h0 : Fresh sid (r.state 0)) (hij : i ≤ j) (hj : j ≤ r.length)
    (hc : Cached id a (r.state i)) : Cached id a (r.state j) := by
  obtain ⟨c, hc, hac⟩ := hc
  obtain ⟨d, hd, hcd⟩ := cache_mono_run h0 hij hj hc
  exact ⟨d, hd, hac.trans hcd⟩

/-- Of two values that the target has had, the one with the greater revision is the later one. -/
theorem later_of_past (h0 : Fresh sid (r.state 0)) (hn : n ≤ r.length) (ha : Past r n a)
    (hc : Past r n c) (hac : a.revision ≤ c.revision) : Later a c := by
  obtain ⟨i, hi, ha⟩ := ha
  obtain ⟨j, hj, hc⟩ := hc
  rcases Nat.le_total i j with hij | hji
  · exact later_of_le h0.init hij (hj.trans hn) ha hc
  · have hca := later_of_le h0.init hji (hi.trans hn) hc ha
    rw [hca.eq_of_revision (Nat.le_antisymm hca.revision_le hac)]
    exact .refl a

/-- An update that is about to return is in the cache of its process. -/
theorem cached_of_returning (h0 : Fresh sid (r.state 0)) (hj : j ≤ r.length)
    (hpc : (r.state j).pc t = .updateReturn a) : Cached t.process a (r.state j) := by
  have hinv := r.invariant
    (P := fun s => (∃ b, Inv sid s b) ∧
      ∀ t a, s.pc t = .updateReturn a → Cached t.process a s)
    ⟨Run.inv h0.init (Nat.zero_le _), fun t a h => absurd ((h0.init.2.2.2 t).symm.trans h) nofun⟩
    (fun s _ s' hstep ⟨⟨b, hb⟩, hs⟩ => by
      refine ⟨?_, fun t a ht => ?_⟩
      · obtain ⟨d, hd, -⟩ := inv_step hb hstep
        exact ⟨d, hd⟩
      · rcases updateReturn_step hstep ht with h | h
        · exact (hs t a h).step hb hstep
        · exact ⟨a, h, Nat.le_refl _⟩)
  exact (hinv j hj).2 t a hpc

/-- A refresh of `t` that is about to read the target at `m` has passed the cache at `k`. What it
publishes, or whether it can, is left open. -/
structure Refreshed (r : Run (Step sid)) (m k : Nat) (t : Task) : Prop where
  le : m ≤ k
  reading : (r.state m).pc t = .refreshRead
  refreshing : ∀ i, m ≤ i → i ≤ k → ((r.state i).pc t).refreshing = true
  passed : ∃ c, (r.state k).pc t = .observePublish c

/-- Where a refresh is that began to read when the target was `a`. -/
def Carries (a : FileVerboseState) (t : Task) (s : State) : Prop :=
  s.pc t = .refreshRead ∨ (∃ x, s.pc t = .observeCache x ∧ a.revision ≤ x.revision) ∨
    Cached t.process a s

theorem observed_ge_right (c x : FileVerboseState) : x.revision ≤ (observed c x).revision := by
  unfold observed
  split
  · exact Nat.le_refl _
  · omega

/-- **The step lemma**: the value that is read is brought into the cache. -/
theorem Carries.step (hc : Carries a t s) (hi : Inv sid s b) (hab : a.revision ≤ b.revision)
    (h : Step sid s l s') (hnew : (s'.pc t).refreshing = true) : Carries a t s' := by
  rcases or_assoc.mpr hc with hahead | hcached
  · cases hpc : s'.pc t with
    | refreshRead => exact .inl hpc
    | observeCache y =>
      rcases observeCache_step h hpc with hsame | hreads
      · rcases hahead with hread | ⟨x, hx, hax⟩
        · exact absurd (hread.symm.trans hsame) nofun
        · obtain rfl := PC.observeCache.inj (hx.symm.trans hsame)
          exact .inr (.inl ⟨x, hpc, hax⟩)
      · exact .inr (.inl ⟨y, hpc, hi.reads.unique hreads ▸ hab⟩)
    | observePublish y =>
      rcases hahead with hread | ⟨x, hx, hax⟩
      · rcases observePublish_step h hpc with h | ⟨z, d, h, -⟩ <;>
          exact absurd (hread.symm.trans h) nofun
      · rcases observePublish_step h hpc with h | ⟨z, d, h, -, rfl, hd, -⟩
        · exact absurd (hx.symm.trans h) nofun
        · obtain rfl := PC.observeCache.inj (hx.symm.trans h)
          exact .inr (.inr ⟨_, hd, hax.trans (observed_ge_right d x)⟩)
    | initRead =>
      rcases hahead with hold | ⟨x, hold, -⟩ <;> rcases initRead_step h hpc with h | h <;>
        exact absurd (hold.symm.trans h) nofun
    | _ =>
      rw [hpc] at hnew
      exact absurd hnew nofun
  · exact .inr (.inr (hcached.step hi h))

/-- **The run lemma**: a refresh that has passed the cache has brought the target there. -/
theorem Refreshed.cached (hr : Refreshed r m k t) (h0 : Fresh sid (r.state 0)) (hk : k ≤ r.length)
    (ha : Reads sid (r.state m) a) : Cached t.process a (r.state k) := by
  have hcarries : ∀ i, m ≤ i → i ≤ k → Carries a t (r.state i) := by
    intro i hmi
    induction i, hmi using Nat.le_induction with
    | base => exact fun _ => .inl hr.reading
    | succ i hmi ih =>
      intro hik
      have hle : i ≤ k := Nat.le_of_succ_le hik
      obtain ⟨b, hb⟩ := Run.inv h0.init (hle.trans hk)
      exact (ih hle).step hb (later_of_le h0.init hmi (hle.trans hk) ha hb.reads).revision_le
        (r.step_ok i (lt_of_lt_of_le hik hk)) (hr.refreshing (i + 1) (Nat.le_succ_of_le hmi) hik)
  obtain ⟨c, hpc⟩ := hr.passed
  rcases hcarries k hr.le (Nat.le_refl k) with h | ⟨x, h, -⟩ | h
  · exact absurd (hpc.symm.trans h) nofun
  · exact absurd (hpc.symm.trans h) nofun
  · exact h

end Runs

/-- What an execution adopts that the process `id` enters at the moment `n`, with `c` in its
cache. -/
structure Adopted (r : Run (Step sid)) (id : Identity) (n : Nat) (c : FileVerboseState) : Prop where
  /-- The target has been `c`. -/
  accepted : Past r n c
  /-- An earlier execution of the process has adopted nothing later. -/
  monotone : ∀ m d, m ≤ n → (r.state m).cache id = some d → Later d c
  /-- An update of the process that has returned is in effect. -/
  own : ∀ i j t v state, Call r i j t v → r.label j = .ret t state → t.process = id → j < n →
    Later state c
  /-- So is an update of any process that returned before a refresh of this process. -/
  propagated : ∀ i j m k t u v state, Call r i j t v → r.label j = .ret t state → j < m →
    Refreshed r m k u → u.process = id → k ≤ n → Later state c
  /-- Since a refresh of the process the target has not changed: `c` is the target. -/
  settled : ∀ m k u a b, Refreshed r m k u → u.process = id → k ≤ n → Reads sid (r.state m) a →
    Reads sid (r.state n) b → a.revision = b.revision → c = b
  /-- An execution of another process that has adopted the same revision has the same policy. -/
  agreed : ∀ m id' d, m ≤ n → (r.state m).cache id' = some d → d.revision = c.revision → d = c

section Main

variable {r : Run (Step sid)} {j n : Nat}

/-- The result of an update was the target before it returned. -/
theorem past_of_ret {i : Nat} {v : Value} (h0 : Fresh sid (r.state 0)) (hcall : Call r i j t v)
    (hj : j < r.length) (hret : r.label j = .ret t a) : Past r (j + 1) a := by
  obtain ⟨-, k, b, -, hk, -, -, ha, -⟩ := hcall.ret h0.init hj hret
  exact ⟨k + 1, hk, ha⟩

theorem cached_of_ret (h0 : Fresh sid (r.state 0)) (hj : j < r.length)
    (hret : r.label j = .ret t a) : Cached t.process a (r.state j) := by
  refine cached_of_returning h0 hj.le ?_
  have hstep := r.step_ok j hj
  rw [hret] at hstep
  generalize r.state (j + 1) = s' at hstep
  cases hstep with
  | updateReturn _ _ hpc => exact hpc

theorem Past.mono {m : Nat} (h : Past r m a) (hmn : m ≤ n) : Past r n a := by
  obtain ⟨k, hk, ha⟩ := h
  exact ⟨k, hk.trans hmn, ha⟩

theorem Cached.revision_le {m : Nat} (ha : Cached id a (r.state m)) (h0 : Fresh sid (r.state 0))
    (hm : m ≤ n) (hn : n ≤ r.length) (hc : (r.state n).cache id = some c) :
    a.revision ≤ c.revision := by
  obtain ⟨d, hd, had⟩ := ha.stays h0 hm hn
  obtain rfl := Option.some.inj (hc.symm.trans hd)
  exact had

theorem adopted (h0 : Fresh sid (r.state 0)) (hn : n ≤ r.length)
    (hc : (r.state n).cache id = some c) : Adopted r id n c := by
  have hpast : Past r n c := (history h0 n hn).cached id c hc
  have hlater {m : Nat} {a : FileVerboseState} (ha : Past r m a) (hm : m ≤ n)
      (hac : a.revision ≤ c.revision) : Later a c :=
    later_of_past h0 hn (ha.mono hm) hpast hac
  refine ⟨hpast, ?monotone, ?own, ?propagated, ?settled, ?agreed⟩
  case monotone =>
    intro m d hm hd
    exact hlater ((history h0 m (hm.trans hn)).cached id d hd) hm
      (Cached.revision_le ⟨d, hd, Nat.le_refl _⟩ h0 hm hn hc)
  case own =>
    rintro i j t v state hcall hret rfl hjn
    have hj : j < r.length := lt_of_lt_of_le hjn hn
    exact hlater (past_of_ret h0 hcall hj hret) hjn
      ((cached_of_ret h0 hj hret).revision_le h0 hjn.le hn hc)
  case propagated =>
    rintro i j m k t u v state hcall hret hjm hrefresh rfl hkn
    have hmn : m ≤ n := hrefresh.le.trans hkn
    have hj : j < r.length := lt_of_lt_of_le hjm (hmn.trans hn)
    obtain ⟨b, hb⟩ := Run.inv h0.init (hmn.trans hn)
    obtain ⟨l, hl, hstate⟩ := past_of_ret h0 hcall hj hret
    have hsb := later_of_le h0.init (hl.trans hjm) (hmn.trans hn) hstate hb.reads
    have hbc := (hrefresh.cached h0 (hkn.trans hn) hb.reads).revision_le h0 hkn hn hc
    exact hlater ⟨l, hl, hstate⟩ (Nat.succ_le_of_lt (lt_of_lt_of_le hjm hmn))
      (hsb.revision_le.trans hbc)
  case settled =>
    rintro m k u a b hrefresh rfl hkn ha hb hab
    have hac := (hrefresh.cached h0 (hkn.trans hn) ha).revision_le h0 hkn hn hc
    have hcb : Later c b := later_of_past h0 hn hpast ⟨n, Nat.le_refl n, hb⟩ ?_
    · exact hcb.eq_of_revision (Nat.le_antisymm hcb.revision_le (hab ▸ hac))
    · obtain ⟨e, he⟩ := Run.inv h0.init hn
      obtain rfl := he.reads.unique hb.read
      exact (he.cached _ c hc).revision_le
  case agreed =>
    intro m id' d hm hd hdc
    exact (hlater ((history h0 m (hm.trans hn)).cached id' d hd) hm hdc.le).eq_of_revision hdc

/-- **New executions adopt what has been accepted**, and their file diagnostics follow it: what an
execution pins is a value the target has had, as late as every value that an earlier execution of
its process pinned, that an update of its process returned, or that an update of any process
returned before the last refresh of its process; and while it is pinned, a diagnostic record reaches
the file sinks whose source filter accepts it exactly when that value is enabled. -/
theorem policies_adopted {α : Type*} (r : Run (Step sid)) (id : Identity) (n : Nat)
    (c : FileVerboseState) (h0 : Fresh sid (r.state 0)) (hn : n ≤ r.length)
    (hc : (r.state n).cache id = some c) :
    Adopted r id n c ∧
      ∀ (o : Output) (producer : Producer) (record : Record α) (sink : Background.FileSink),
        duplicates producer record = false → record.verbose = true →
        o.handlerLevel ≤ record.levelno →
        (o.reaches (producer.pin (some c.enabled)) record sink = true ↔
          c.enabled = true ∧
            Background.sourceFilter sink.logger_names (o.source record) = true) := by
  refine ⟨adopted h0 hn hc, fun o producer record sink hdup hverbose hlevel => ?_⟩
  exact Output.reaches_verbose (c := producer.pin (some c.enabled)) hdup hverbose hlevel

end Main

/-- The refresh that was overtaken leaves the update of its process in effect. -/
theorem policies_adopted_overtaken : Adopted overtaken ⟨1, 0⟩ 15 ⟨true, 1⟩ := by
  have h0 : Fresh "service" (overtaken.state 0) :=
    ⟨⟨⟨⟨false, 0⟩, rfl⟩, rfl, fun _ => rfl, fun _ => rfl⟩, fun _ _ ⟨_, _, h⟩ => absurd h nofun⟩
  exact (policies_adopted (α := Unit) overtaken ⟨1, 0⟩ 15 ⟨true, 1⟩ h0 (Nat.le_refl 15) rfl).1

end LclFastapi.Verbose
