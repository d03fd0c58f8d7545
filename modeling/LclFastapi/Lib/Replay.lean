import Mathlib.Data.Finset.Basic

/-!
# Replaying changes of a set

Additions and removals, applied in order to a finite set. An addition of what is there, or a
removal of what is not, makes the replay fail.

* `replay_append`: a replay goes on where the one before it has ended.
* **`replay_update`**: removals first and additions after them succeed as soon as what is removed
  was there and what is added was not, or has just been removed.
-/

namespace LclFastapi.Lib

/-- One change of a set. -/
inductive Change (α : Type*) where
  | add (a : α)
  | remove (a : α)

variable {α : Type*} [DecidableEq α] {s : Finset α}

/-- What a change makes of a set, when it applies. -/
def Change.result? (s : Finset α) : Change α → Option (Finset α)
  | .add a => if a ∈ s then none else some (insert a s)
  | .remove a => if a ∈ s then some (s.erase a) else none

/-- The changes of a list, one after the other. -/
def replay (s : Finset α) (changes : List (Change α)) : Option (Finset α) :=
  changes.foldlM Change.result? s

@[simp] theorem replay_nil : replay s [] = some s := rfl

theorem replay_cons (c : Change α) (changes : List (Change α)) :
    replay s (c :: changes) = (c.result? s).bind fun t => replay t changes := by
  rw [replay, List.foldlM_cons]
  rfl

theorem replay_append (changes changes' : List (Change α)) :
    replay s (changes ++ changes') = (replay s changes).bind fun t => replay t changes' := by
  rw [replay, List.foldlM_append]
  rfl

theorem replay_remove {as : List α} (hnodup : as.Nodup) (hmem : ∀ a ∈ as, a ∈ s) :
    replay s (as.map .remove) = some (s \ as.toFinset) := by
  induction as generalizing s with
  | nil => simp
  | cons a as ih =>
    obtain ⟨hnew, hnodup⟩ := List.nodup_cons.mp hnodup
    obtain ⟨ha, hmem⟩ := List.forall_mem_cons.mp hmem
    have hrest : ∀ b ∈ as, b ∈ s.erase a := fun b hb =>
      Finset.mem_erase.mpr ⟨fun he => hnew (he ▸ hb), hmem b hb⟩
    have hset : s.erase a \ as.toFinset = s \ (a :: as).toFinset := by
      ext b
      simp only [Finset.mem_sdiff, Finset.mem_erase, List.mem_toFinset, List.mem_cons, not_or]
      tauto
    rw [List.map_cons, replay_cons, Change.result?, if_pos ha, Option.bind_some, ih hnodup hrest,
      hset]

theorem replay_add {as : List α} (hnodup : as.Nodup) (hnew : ∀ a ∈ as, a ∉ s) :
    replay s (as.map .add) = some (s ∪ as.toFinset) := by
  induction as generalizing s with
  | nil => simp
  | cons a as ih =>
    obtain ⟨hfirst, hnodup⟩ := List.nodup_cons.mp hnodup
    obtain ⟨ha, hnew⟩ := List.forall_mem_cons.mp hnew
    have hrest : ∀ b ∈ as, b ∉ insert a s := fun b hb hin => by
      rcases Finset.mem_insert.mp hin with rfl | hin
      · exact hfirst hb
      · exact hnew b hb hin
    have hset : insert a s ∪ as.toFinset = s ∪ (a :: as).toFinset := by
      ext b
      simp only [Finset.mem_union, Finset.mem_insert, List.mem_toFinset, List.mem_cons]
      tauto
    rw [List.map_cons, replay_cons, Change.result?, if_neg ha, Option.bind_some, ih hnodup hrest,
      hset]

/-- **Removals before additions.** -/
theorem replay_update {removed added : List α} (hremoved : removed.Nodup) (hadded : added.Nodup)
    (hmem : ∀ a ∈ removed, a ∈ s) (hnew : ∀ a ∈ added, a ∈ s → a ∈ removed) :
    replay s (removed.map .remove ++ added.map .add) =
      some (s \ removed.toFinset ∪ added.toFinset) := by
  have hfree : ∀ a ∈ added, a ∉ s \ removed.toFinset := fun a ha hin => by
    obtain ⟨hs, hout⟩ := Finset.mem_sdiff.mp hin
    exact hout (List.mem_toFinset.mpr (hnew a ha hs))
  rw [replay_append, replay_remove hremoved hmem, Option.bind_some, replay_add hadded hfree]

end LclFastapi.Lib
