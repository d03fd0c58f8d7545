import Mathlib.Data.List.Infix

/-!
# Dotted names

A dotted name is a list over an alphabet with a separator `d`. `Under d name source` says that the
name `source` is `name` or lies below it: the relation by which hierarchical loggers, packages and
domains select their descendants.

* `under_iff_isPrefix`: it is the prefix order of the names closed by a separator.
* `under_append_left`: a common part in front is irrelevant.
* `Separated`: two names neither of which lies below the other, unless they are equal. Names that
  start with different labels are, also when one label is a prefix of the other.
* **`Separated.under_iff`**: what lies below separated names is related only when the two are equal.
-/

namespace LclFastapi.Lib

variable {α : Type*}

/-- `source` is `name`, or extends it after a separator. -/
def Under (d : α) (name source : List α) : Prop := source = name ∨ name ++ [d] <+: source

variable {d : α} {name name' source above label label' : List α}

theorem under_iff_isPrefix : Under d name source ↔ name ++ [d] <+: source ++ [d] := by
  unfold Under
  rw [List.prefix_concat_iff, List.append_left_inj, eq_comm]

theorem under_append_left : Under d (above ++ name) (above ++ source) ↔ Under d name source := by
  rw [under_iff_isPrefix, under_iff_isPrefix, List.append_assoc, List.append_assoc,
    List.prefix_append_right_inj]

/-- A closed label ends at its separator. -/
theorem label_eq_of_isPrefix (h : d ∉ label) (h' : d ∉ label')
    (hp : label ++ [d] <+: label' ++ d :: source) : label = label' := by
  induction label generalizing label' with
  | nil =>
    cases label' with
    | nil => rfl
    | cons a label' =>
      obtain ⟨rfl, -⟩ := List.cons_prefix_cons.mp hp
      exact absurd (.head _) h'
  | cons a label ih =>
    cases label' with
    | nil =>
      obtain ⟨rfl, -⟩ := List.cons_prefix_cons.mp hp
      exact absurd (.head _) h
    | cons b label' =>
      obtain ⟨rfl, hp'⟩ := List.cons_prefix_cons.mp hp
      rw [ih (fun hm => h (.tail _ hm)) (fun hm => h' (.tail _ hm)) hp']

/-- The closed name `name` stands in front of names below `name'` only when the two are equal. -/
def Separated (d : α) (name name' : List α) : Prop :=
  ∀ source, name ++ [d] <+: name' ++ d :: source → name = name'

theorem separated_labels (h : d ∉ label) (h' : d ∉ label') : Separated d label label' :=
  fun _ hp => label_eq_of_isPrefix h h' hp

/-- Names below different labels. -/
theorem separated_of_ne (h : d ∉ label) (h' : d ∉ label') (hne : label ≠ label')
    (hn : Under d label name) (hn' : Under d label' name') : Separated d name name' := by
  intro source hp
  rw [List.append_cons name'] at hp
  obtain ⟨rest, hrest⟩ := under_iff_isPrefix.mp hn'
  have hhead : label ++ [d] <+: label' ++ d :: (rest ++ source) := by
    rw [List.append_cons label', ← List.append_assoc, hrest]
    exact (under_iff_isPrefix.mp hn).trans hp
  exact absurd (label_eq_of_isPrefix h h' hhead) hne

theorem Separated.append_left (h : Separated d name name') :
    Separated d (above ++ name) (above ++ name') := by
  intro source hp
  rw [List.append_assoc, List.append_assoc, List.prefix_append_right_inj] at hp
  rw [h source hp]

/-- **Names below separated names are unrelated**, unless the two are equal. -/
theorem Separated.under_iff (h : Separated d name name') {low low' : List α} :
    Under d (name ++ d :: low) (name' ++ d :: low') ↔ name = name' ∧ Under d low low' := by
  constructor
  · intro hu
    have hname : name = name' := by
      rw [under_iff_isPrefix, List.append_assoc, List.append_assoc] at hu
      have hhead : name ++ [d] <+: name ++ (d :: low ++ [d]) :=
        ⟨low ++ [d], by rw [List.append_assoc]; rfl⟩
      exact h _ (hhead.trans hu)
    subst hname
    rw [List.append_cons name d low, List.append_cons name d low', under_append_left] at hu
    exact ⟨rfl, hu⟩
  · rintro ⟨rfl, hu⟩
    rw [List.append_cons name d low, List.append_cons name d low', under_append_left]
    exact hu

theorem Separated.under_self_iff (h : Separated d name name') {low : List α} :
    Under d name (name' ++ d :: low) ↔ name = name' := by
  rw [under_iff_isPrefix, List.append_assoc]
  constructor
  · exact h _
  · rintro rfl
    exact ⟨low ++ [d], by rw [List.append_assoc]; rfl⟩

end LclFastapi.Lib
