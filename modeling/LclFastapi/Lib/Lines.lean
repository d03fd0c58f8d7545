import Mathlib.Data.List.Basic

/-!
# Complete lines of a growing text

A text over any alphabet is cut into lines by a terminator, which ends each of them. A reader that
sees a prefix of the text finds the complete lines in it; what follows the last terminator is no
line yet. The text is a list of things, each written by `f` as one line.

* `fitting f n ls` are the first things whose lines fit into `n` letters. **`lines_take`**: their
  lines are what a reader of the first `n` letters finds.
* `fitting_append_of_le`: lines written later do not change them.
* **`lines_resume`**: a reader that goes on behind the lines it has found finds the rest of them.
-/

namespace LclFastapi.Lib.Lines

variable {α β : Type*}

/-- The complete lines of a text, behind the letters of a line that has begun. -/
def linesFrom [DecidableEq α] (nl : α) : List α → List α → List (List α)
  | _, [] => []
  | begun, c :: text =>
    if c = nl then (begun ++ [c]) :: linesFrom nl [] text else linesFrom nl (begun ++ [c]) text

/-- The complete lines of a text. -/
def lines [DecidableEq α] (nl : α) (text : List α) : List (List α) := linesFrom nl [] text

/-- A line ends with the only terminator in it. -/
def IsLine (nl : α) (l : List α) : Prop := ∃ body, l = body ++ [nl] ∧ nl ∉ body

/-- The first things whose lines fit into `n` letters. -/
def fitting (f : β → List α) : Nat → List β → List β
  | _, [] => []
  | n, l :: ls => if (f l).length ≤ n then l :: fitting f (n - (f l).length) ls else []

variable {nl : α} {begun body text l : List α} {f : β → List α} {ls ms : List β} {n m : Nat}

theorem IsLine.ne_nil (h : IsLine nl l) : l ≠ [] := by
  obtain ⟨body, rfl, -⟩ := h
  simp

/-! ## The lines that fit -/

theorem fitting_append (h : (ls.flatMap f).length ≤ n) :
    fitting f n (ls ++ ms) = ls ++ fitting f (n - (ls.flatMap f).length) ms := by
  induction ls generalizing n with
  | nil => simp
  | cons l ls ih =>
    rw [List.flatMap_cons, List.length_append] at h
    rw [List.cons_append, fitting, if_pos (by omega), ih (by omega), List.flatMap_cons,
      List.length_append, Nat.sub_sub, List.cons_append]

theorem fitting_zero (h : ∀ l ∈ ls, f l ≠ []) : fitting f 0 ls = [] := by
  cases ls with
  | nil => rfl
  | cons l ls =>
    have hl : ¬ (f l).length ≤ 0 := fun hle =>
      h l (.head _) (List.length_eq_zero_iff.mp (Nat.le_zero.mp hle))
    simp only [fitting, if_neg hl]

/-- Lines behind the first `n` letters are not found in them. -/
theorem fitting_append_of_le (h : n ≤ (ls.flatMap f).length) (hms : ∀ l ∈ ms, f l ≠ []) :
    fitting f n (ls ++ ms) = fitting f n ls := by
  induction ls generalizing n with
  | nil =>
    obtain rfl : n = 0 := Nat.le_zero.mp h
    exact fitting_zero hms
  | cons l ls ih =>
    rw [List.flatMap_cons, List.length_append] at h
    simp only [List.cons_append, fitting]
    split
    · rw [ih (by omega)]
    · rfl

theorem fitting_prefix (f : β → List α) (n : Nat) (ls : List β) :
    ∃ rest, ls = fitting f n ls ++ rest ∧ ((fitting f n ls).flatMap f).length ≤ n := by
  induction ls generalizing n with
  | nil => exact ⟨[], rfl, Nat.zero_le _⟩
  | cons l ls ih =>
    unfold fitting
    split
    · rename_i hle
      obtain ⟨rest, hrest, hlength⟩ := ih (n - (f l).length)
      refine ⟨rest, by rw [List.cons_append, ← hrest], ?_⟩
      rw [List.flatMap_cons, List.length_append]
      omega
    · exact ⟨l :: ls, rfl, Nat.zero_le _⟩

/-- Fewer letters hold no line where more hold none. -/
theorem fitting_mono_nil (h : fitting f n ls = []) (hm : m ≤ n) : fitting f m ls = [] := by
  cases ls with
  | nil => rfl
  | cons l ls =>
    unfold fitting at h ⊢
    split at h
    · cases h
    · rw [if_neg (by omega)]

/-- Behind the lines that fit into `m` letters are the others that fit into `n`, if any. -/
theorem fitting_resume {rest : List β} (h : ls = fitting f m ls ++ rest) :
    fitting f (max m n) ls =
      fitting f m ls ++ fitting f (n - ((fitting f m ls).flatMap f).length) rest := by
  obtain ⟨-, -, hlength⟩ := fitting_prefix f m ls
  have hstop : fitting f (m - ((fitting f m ls).flatMap f).length) rest = [] := by
    have hsplit : fitting f m (fitting f m ls ++ rest) = _ := fitting_append hlength
    rw [← h] at hsplit
    exact List.self_eq_append_right.mp hsplit
  rcases Nat.le_total m n with hmn | hnm
  · rw [Nat.max_eq_right hmn]
    conv_lhs => rw [h]
    exact fitting_append (Nat.le_trans hlength hmn)
  · rw [Nat.max_eq_left hnm, fitting_mono_nil hstop (Nat.sub_le_sub_right hnm _), List.append_nil]

/-! ## Reading a prefix -/

variable [DecidableEq α]

theorem linesFrom_line (h : nl ∉ body) :
    linesFrom nl begun (body ++ nl :: text) = (begun ++ body ++ [nl]) :: lines nl text := by
  induction body generalizing begun with
  | nil => simp [linesFrom, lines]
  | cons c body ih =>
    obtain ⟨hc, hbody⟩ := List.ne_and_not_mem_of_not_mem_cons h
    simp only [List.cons_append, linesFrom, if_neg (Ne.symm hc)]
    rw [ih hbody]
    simp

theorem linesFrom_partial (h : nl ∉ text) : linesFrom nl begun text = [] := by
  induction text generalizing begun with
  | nil => rfl
  | cons c text ih =>
    obtain ⟨hc, htext⟩ := List.ne_and_not_mem_of_not_mem_cons h
    simp only [linesFrom, if_neg (Ne.symm hc)]
    exact ih htext

theorem lines_append (h : IsLine nl l) : lines nl (l ++ text) = l :: lines nl text := by
  obtain ⟨body, rfl, hbody⟩ := h
  have hline : linesFrom nl [] (body ++ nl :: text) = _ := linesFrom_line hbody
  unfold lines
  rwa [List.append_assoc]

/-- A line that is cut before its end has no terminator. -/
theorem lines_take_partial (h : IsLine nl l) (hn : n < l.length) : lines nl (l.take n) = [] := by
  obtain ⟨body, rfl, hbody⟩ := h
  refine linesFrom_partial fun hmem => hbody ?_
  rw [List.length_append, List.length_singleton] at hn
  rw [List.take_append_of_le_length (Nat.le_of_lt_succ hn)] at hmem
  exact List.mem_of_mem_take hmem

/-- **A reader of a prefix finds the lines that fit into it.** -/
theorem lines_take (h : ∀ l ∈ ls, IsLine nl (f l)) (n : Nat) :
    lines nl ((ls.flatMap f).take n) = (fitting f n ls).map f := by
  induction ls generalizing n with
  | nil => simp [lines, linesFrom, fitting]
  | cons l ls ih =>
    obtain ⟨hl, hls⟩ := List.forall_mem_cons.mp h
    rw [List.flatMap_cons, fitting]
    split
    · rename_i hle
      rw [List.take_append, List.take_of_length_le hle, lines_append hl, ih hls, List.map_cons]
    · rename_i hlt
      rw [List.take_append_of_le_length (Nat.le_of_not_le hlt),
        lines_take_partial hl (Nat.lt_of_not_le hlt), List.map_nil]

/-- **Resuming**: a reader of `n` letters that starts behind the lines that fit into `m` finds the
others that fit into `n`. -/
theorem lines_resume (h : ∀ l ∈ ls, IsLine nl (f l)) (m n : Nat) :
    ∃ rest, fitting f (max m n) ls = fitting f m ls ++ rest ∧
      lines nl (((ls.flatMap f).take n).drop ((fitting f m ls).flatMap f).length) = rest.map f := by
  obtain ⟨rest, hrest, -⟩ := fitting_prefix f m ls
  have hlines : ∀ l ∈ rest, IsLine nl (f l) := fun l hl =>
    h l (by rw [hrest]; exact List.mem_append_right _ hl)
  have hdrop : (ls.flatMap f).drop ((fitting f m ls).flatMap f).length = rest.flatMap f := by
    have hbehind (first : List β) :
        ((first ++ rest).flatMap f).drop (first.flatMap f).length = rest.flatMap f := by
      rw [List.flatMap_append, List.drop_left]
    simpa only [← hrest] using hbehind (fitting f m ls)
  refine ⟨_, fitting_resume hrest, ?_⟩
  rw [List.drop_take, hdrop]
  exact lines_take hlines _

end LclFastapi.Lib.Lines
