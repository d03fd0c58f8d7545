import Mathlib.Data.Set.Insert
import Mathlib.Logic.Function.Basic

/-!
# `flock` locks of one file

The lock belongs to an open file description, not to a process: a fork shares the description, any
process that has it open may unlock it, and closing one of several descriptors does not. The kernel
frees it when the last descriptor is closed.

* `Flock.Step` lists what processes can do to the descriptions of the file.
* `Step.kept`: a locked description stays locked, and nobody else gets the lock, until a process
  that has it open unlocks it or its last descriptor is closed.
* `Step.holds_subset`: a description in use comes to no process through a step of one that does not
  have it open.
-/

namespace LclFastapi.Lib

/-- The open file descriptions of one file, with the processes that have each of them open. -/
structure Flock (P : Type*) where
  locked : Option Nat
  holds : Nat → Set P

namespace Flock

variable {P : Type*} {f f' : Flock P} {p q c : P} {d e : Nat}

/-- `open`, under the description `d`. -/
def opened (f : Flock P) (p : P) (d : Nat) : Flock P :=
  { f with holds := Function.update f.holds d {p} }

/-- `flock(fd, LOCK_EX)`, once it succeeds. -/
def lock (f : Flock P) (d : Nat) : Flock P := { f with locked := some d }

/-- `flock(fd, LOCK_UN)`. -/
def unlocked (f : Flock P) (d : Nat) : Flock P :=
  { f with locked := if f.locked = some d then none else f.locked }

/-- A child has every description of its parent open. -/
def forked (f : Flock P) (p c : P) : Flock P :=
  { f with holds := fun d => {q | q ∈ f.holds d ∨ q = c ∧ p ∈ f.holds d} }

/-- `p` no longer has `d` open. -/
def drop (f : Flock P) (p : P) (d : Nat) : Flock P :=
  { f with holds := Function.update f.holds d (f.holds d \ {p}) }

/-- The ways to close: the last descriptor of a locked description frees the lock. -/
inductive Closes (f : Flock P) (p : P) (d : Nat) : Flock P → Prop
  | shared (q : P) (hne : q ≠ p) (hq : q ∈ f.holds d) : Closes f p d (f.drop p d)
  | last (h : ∀ q, q ∈ f.holds d → q = p) : Closes f p d ((f.unlocked d).drop p d)

inductive Op (P : Type*) where
  | open_ (d : Nat)
  | lock (d : Nat)
  | unlock (d : Nat)
  | close (d : Nat)
  | fork (c : P)

/-- What a process does. -/
inductive Step : Flock P → P → Op P → Flock P → Prop
  | open_ (f : Flock P) (p : P) (d : Nat) (hnew : f.holds d = ∅) :
      Step f p (.open_ d) (f.opened p d)
  | lock (f : Flock P) (p : P) (d : Nat) (hp : p ∈ f.holds d) (hfree : f.locked = none) :
      Step f p (.lock d) (f.lock d)
  | unlock (f : Flock P) (p : P) (d : Nat) (hp : p ∈ f.holds d) :
      Step f p (.unlock d) (f.unlocked d)
  | close (f : Flock P) (p : P) (d : Nat) (f' : Flock P) (h : Closes f p d f') :
      Step f p (.close d) f'
  | fork (f : Flock P) (p c : P) : Step f p (.fork c) (f.forked p c)

/-! ## Who has a description open -/

theorem mem_opened : q ∈ (f.opened p d).holds e ↔ if e = d then q = p else q ∈ f.holds e := by
  unfold opened
  by_cases h : e = d
  · subst h
    simp
  · simp [h]

theorem mem_forked : q ∈ (f.forked p c).holds e ↔ q ∈ f.holds e ∨ q = c ∧ p ∈ f.holds e :=
  Iff.rfl

theorem mem_drop : q ∈ (f.drop p d).holds e ↔ q ∈ f.holds e ∧ ¬ (q = p ∧ e = d) := by
  unfold drop
  by_cases h : e = d
  · subst h
    simp
  · simp [h]

theorem Closes.mem (h : Closes f p d f') :
    q ∈ f'.holds e ↔ q ∈ f.holds e ∧ ¬ (q = p ∧ e = d) := by
  cases h with
  | shared => exact mem_drop
  | last => exact mem_drop

/-- A description in use is shared only by the processes that have it open. -/
theorem Step.holds_subset {op : Op P} (h : Step f p op f') (hp : p ∉ f.holds e)
    (hne : (f.holds e).Nonempty) : f'.holds e ⊆ f.holds e := by
  intro q hq
  cases h with
  | open_ d hnew =>
    have hde : e ≠ d := by
      rintro rfl
      exact hne.ne_empty hnew
    rwa [mem_opened, if_neg hde] at hq
  | lock => exact hq
  | unlock => exact hq
  | close d _ h => exact (h.mem.mp hq).1
  | fork c => exact (mem_forked.mp hq).resolve_right fun hc => hp hc.2

/-! ## The lock -/

/-- `LOCK_UN` frees the lock, whoever else has the description open. -/
theorem unlocked_self (h : f.locked = some d) : (f.unlocked d).locked = none := if_pos h

theorem unlocked_of_ne (h : f.locked = some e) (hne : d ≠ e) :
    (f.unlocked d).locked = some e := by
  unfold unlocked
  rw [if_neg, h]
  intro hd
  exact hne (Option.some.inj (hd.symm.trans h))

/-- A closed descriptor leaves the lock to the other processes that have the description open. -/
theorem Closes.locked (h : Closes f p d f') (hq : q ∈ f.holds e) (hne : q ≠ p)
    (hl : f.locked = some e) : f'.locked = some e := by
  cases h with
  | shared => exact hl
  | last hlast =>
    have hde : d ≠ e := by
      rintro rfl
      exact hne (hlast q hq)
    exact unlocked_of_ne hl hde

/-- **A locked description stays locked** through every step of another process, but an unlock by
one that has it open. -/
theorem Step.kept {op : Op P} (h : Step f p op f') (hq : q ∈ f.holds e) (hne : q ≠ p)
    (hl : f.locked = some e) (hp : p ∉ f.holds e) : q ∈ f'.holds e ∧ f'.locked = some e := by
  cases h with
  | open_ d hnew =>
    have hde : e ≠ d := by
      rintro rfl
      rw [hnew] at hq
      exact hq
    exact ⟨mem_opened.mpr (by rwa [if_neg hde]), hl⟩
  | lock d _ hfree =>
    rw [hfree] at hl
    cases hl
  | unlock d hd =>
    have hde : d ≠ e := by
      rintro rfl
      exact hp hd
    exact ⟨hq, unlocked_of_ne hl hde⟩
  | close d _ h => exact ⟨h.mem.mpr ⟨hq, fun hc => hne hc.1⟩, h.locked hq hne hl⟩
  | fork c => exact ⟨mem_forked.mpr (.inl hq), hl⟩

end Flock

end LclFastapi.Lib
