import Mathlib.Data.List.Basic

/-!
# What stands behind what in a FIFO queue

A queue is a list, served at its head and filled at its end. `NoneBehind P b q` says that no
element with `P` stands behind an occurrence of `b`, so that all of them are served before `b` is.

* `NoneBehind.head`: when `b` is served, no element with `P` is left.
* `NoneBehind.push`: what is filed behind `b` must not have `P`.
* `noneBehind_concat`: a fresh `b` filed at the end stands behind everything.
-/

namespace LclFastapi.Lib

variable {α : Type*} {P Q : α → Prop} {b x : α} {q l : List α}

/-- No element with `P` stands behind an occurrence of `b`. -/
def NoneBehind (P : α → Prop) (b : α) (q : List α) : Prop :=
  ∀ front back, q = front ++ b :: back → ∀ y ∈ back, ¬ P y

theorem noneBehind_of_not_mem (h : b ∉ q) : NoneBehind P b q := by
  rintro front back rfl
  simp at h

/-- **The service rule**: once `b` is served, no element with `P` is left. -/
theorem NoneBehind.head (h : NoneBehind P b (b :: q)) : ∀ y ∈ q, ¬ P y :=
  h [] q rfl

theorem NoneBehind.tail (h : NoneBehind P b (x :: q)) : NoneBehind P b q := by
  rintro front back rfl
  exact h (x :: front) back rfl

/-- **The filing rule**: an element filed behind `b` does not have `P`. -/
theorem NoneBehind.push (h : NoneBehind P b q) (hx : b ∈ q → ¬ P x) :
    NoneBehind P b (q ++ [x]) := by
  intro front back heq
  rcases List.eq_nil_or_concat back with rfl | ⟨back, z, rfl⟩
  · intro y hy
    simp at hy
  · have hlast : q ++ [x] = (front ++ b :: back) ++ [z] := by simpa using heq
    obtain ⟨rfl, hz⟩ := List.append_inj' hlast rfl
    obtain rfl : x = z := by simpa using hz
    intro y hy
    rw [List.concat_eq_append] at hy
    rcases List.mem_append.mp hy with hy | hy
    · exact h front back rfl y hy
    · obtain rfl := List.mem_singleton.mp hy
      exact hx (by simp)

theorem NoneBehind.append (h : NoneBehind P b q) (hl : ∀ y ∈ l, ¬ P y) :
    NoneBehind P b (q ++ l) := by
  induction l generalizing q with
  | nil => simpa using h
  | cons y l ih =>
    have hpush : NoneBehind P b (q ++ [y]) := h.push fun _ => hl y (by simp)
    simpa using ih hpush fun z hz => hl z (by simp [hz])

theorem NoneBehind.mono (h : NoneBehind P b q) (hle : ∀ y ∈ q, Q y → P y) : NoneBehind Q b q := by
  rintro front back rfl y hy hq
  exact h front back rfl y hy (hle y (by simp [hy]) hq)

/-- A fresh element filed at the end stands behind everything. -/
theorem noneBehind_concat (h : b ∉ q) : NoneBehind P b (q ++ [b]) :=
  (noneBehind_of_not_mem h).push fun hb => absurd hb h

end LclFastapi.Lib
