import Mathlib.Data.List.Basic

/-!
# Focused tracebacks (`diagnostics.py`)

`service_trace_tree` on the native tree of an exception: its causes and group members are nodes, and
the frames of each are the children of a node with the label `TRACEBACK_LABEL`.

* `frames`: every frame of a tree in order, each below the labels of the exceptions it belongs to.
  What is below a frame (its source line) stays with it.
* `skeleton`: the tree without its stacks: the exceptions, their relations and diagnostics.
* `Part t' t`: `t'` is `t` with some subtrees left out, the others in their order.
* The locations of the installed packages are parameters.

**`trace_tree_focused`**: what is left out are exactly the hidden frames, and the stacks in which
nothing is left.
-/

namespace LclFastapi.Diagnostics

/-- `TextTree`. -/
inductive TextTree where
  | node (label : String) (children : List TextTree)

/-- The label of a node. -/
def TextTree.label : TextTree → String
  | .node label _ => label

/-- The nodes below a node. -/
def TextTree.children : TextTree → List TextTree
  | .node _ children => children

/-- The label of the node that holds the frames of an exception. -/
def TRACEBACK_LABEL : String := "Traceback (most recent call last)"

/-- `label.startswith(prefixes)`. -/
def hides (prefixes : List String) (label : String) : Bool :=
  prefixes.any fun p => p.toList.isPrefixOf label.toList

/-- `tree[0] != TRACEBACK_LABEL or tree[1]`. -/
def TextTree.occupied (t : TextTree) : Bool :=
  t.label != TRACEBACK_LABEL || !t.children.isEmpty

mutual

/-- `service_trace_tree` with the prefixes that it hides. -/
def focus (prefixes : List String) : TextTree → TextTree
  | .node label children =>
    if label = TRACEBACK_LABEL then
      .node label (children.filter fun child => !hides prefixes child.label)
    else .node label (selected prefixes children)

/-- The children that are left of a node that is no stack. -/
def selected (prefixes : List String) : List TextTree → List TextTree
  | [] => []
  | child :: children =>
    if (focus prefixes child).occupied then focus prefixes child :: selected prefixes children
    else selected prefixes children

end

section Service

variable (FRAMEWORK_FRAME_PREFIXES : List String) (SERVICE_FRAME_PREFIX : String)

/-- The frameworks are hidden, and the service too in the compact tree. -/
def service_trace_tree (tree : TextTree) (hide_service : Bool) : TextTree :=
  focus (FRAMEWORK_FRAME_PREFIXES ++ if hide_service then [SERVICE_FRAME_PREFIX] else []) tree

end Service

/-! ## What a tree says -/

mutual

/-- The frames of a tree, each with the labels above its stack. -/
def frames (above : List String) : TextTree → List (List String × TextTree)
  | .node label children =>
    if label = TRACEBACK_LABEL then children.map fun frame => (above, frame)
    else framesBelow (above ++ [label]) children

/-- The frames of the children. -/
def framesBelow (above : List String) : List TextTree → List (List String × TextTree)
  | [] => []
  | child :: children => frames above child ++ framesBelow above children

end

mutual

/-- A tree without its stacks. -/
def skeleton : TextTree → TextTree
  | .node label children =>
    if label = TRACEBACK_LABEL then .node label [] else .node label (skeletons children)

/-- The trees without their stacks of frames. -/
def skeletons : List TextTree → List TextTree
  | [] => []
  | child :: children =>
    if child.label = TRACEBACK_LABEL then skeletons children
    else skeleton child :: skeletons children

end

mutual

/-- A tree with some subtrees left out. -/
inductive Part : TextTree → TextTree → Prop
  | node {label : String} {kept children : List TextTree} (h : Parts kept children) :
    Part (.node label kept) (.node label children)

/-- The same of the children: some are left out, the others are parts. -/
inductive Parts : List TextTree → List TextTree → Prop
  | nil : Parts [] []
  | keep {kept child : TextTree} {rest children : List TextTree} (h : Part kept child)
    (hs : Parts rest children) : Parts (kept :: rest) (child :: children)
  | drop {child : TextTree} {kept children : List TextTree} (hs : Parts kept children) :
    Parts kept (child :: children)

end

mutual

/-- No stack below the root is empty. -/
def occupiedBelow : TextTree → Bool
  | .node label children => label == TRACEBACK_LABEL || allOccupied children

/-- No stack among the trees or below them is empty. -/
def allOccupied : List TextTree → Bool
  | [] => true
  | child :: children => child.occupied && occupiedBelow child && allOccupied children

end

variable {prefixes prefixes' : List String}

@[simp] theorem focus_label (t : TextTree) : (focus prefixes t).label = t.label := by
  obtain ⟨label, children⟩ := t
  unfold focus
  split <;> rfl

mutual

theorem part_refl : ∀ t : TextTree, Part t t
  | .node _ children => .node (parts_refl children)

theorem parts_refl : ∀ ts : List TextTree, Parts ts ts
  | [] => .nil
  | t :: ts => .keep (part_refl t) (parts_refl ts)

end

theorem parts_filter (p : TextTree → Bool) (ts : List TextTree) : Parts (ts.filter p) ts := by
  induction ts with
  | nil => exact .nil
  | cons t ts ih =>
    rw [List.filter_cons]
    split
    · exact .keep (part_refl t) ih
    · exact .drop ih

mutual

/-- Nothing is added or moved. -/
theorem part_focus : ∀ t : TextTree, Part (focus prefixes t) t
  | .node label children => by
    unfold focus
    split
    · exact .node (parts_filter _ children)
    · exact .node (parts_selected children)

theorem parts_selected : ∀ ts : List TextTree, Parts (selected prefixes ts) ts
  | [] => .nil
  | t :: ts => by
    unfold selected
    split
    · exact .keep (part_focus t) (parts_selected ts)
    · exact .drop (parts_selected ts)

end

theorem vacant_iff {t : TextTree} : t.occupied = false ↔ t = .node TRACEBACK_LABEL [] := by
  obtain ⟨label, children⟩ := t
  simp [TextTree.occupied, TextTree.label, TextTree.children]

theorem label_of_vacant {t : TextTree} (h : (focus prefixes t).occupied = false) :
    t.label = TRACEBACK_LABEL := by
  rw [← focus_label, vacant_iff.mp h]
  rfl

mutual

/-- **The frames that are left are those not hidden**, in their order and where they were. -/
theorem frames_focus (above : List String) : ∀ t : TextTree,
    frames above (focus prefixes t) =
      (frames above t).filter fun e => !hides prefixes e.2.label
  | .node label children => by
    unfold focus
    split
    · rename_i hlabel
      simp only [frames, if_pos hlabel, List.filter_map]
      rfl
    · rename_i hlabel
      simp only [frames, if_neg hlabel]
      exact framesBelow_selected (above ++ [label]) children

theorem framesBelow_selected (above : List String) : ∀ ts : List TextTree,
    framesBelow above (selected prefixes ts) =
      (framesBelow above ts).filter fun e => !hides prefixes e.2.label
  | [] => rfl
  | t :: ts => by
    rw [framesBelow, List.filter_append, ← frames_focus above t, ← framesBelow_selected above ts,
      selected]
    split
    · rfl
    · rename_i hvacant
      rw [vacant_iff.mp (eq_false_of_ne_true hvacant)]
      rfl

end

mutual

/-- The exceptions are left as they are. -/
theorem skeleton_focus : ∀ t : TextTree, skeleton (focus prefixes t) = skeleton t
  | .node label children => by
    unfold focus
    split
    · rename_i hlabel
      simp only [skeleton, if_pos hlabel]
    · rename_i hlabel
      simp only [skeleton, if_neg hlabel, skeletons_selected children]

theorem skeletons_selected : ∀ ts : List TextTree,
    skeletons (selected prefixes ts) = skeletons ts
  | [] => rfl
  | t :: ts => by
    rw [selected, skeletons]
    split
    · rw [skeletons, focus_label, skeleton_focus t, skeletons_selected ts]
    · rename_i hvacant
      rw [if_pos (label_of_vacant (eq_false_of_ne_true hvacant)), skeletons_selected ts]

end

mutual

theorem occupied_focus : ∀ t : TextTree, occupiedBelow (focus prefixes t) = true
  | .node label children => by
    unfold focus
    split
    · rename_i hlabel
      rw [occupiedBelow, beq_iff_eq.mpr hlabel, Bool.true_or]
    · rw [occupiedBelow, allOccupied_selected children, Bool.or_true]

theorem allOccupied_selected : ∀ ts : List TextTree,
    allOccupied (selected prefixes ts) = true
  | [] => rfl
  | t :: ts => by
    rw [selected]
    split
    · rename_i hoccupied
      rw [allOccupied, hoccupied, occupied_focus t, allOccupied_selected ts]
      rfl
    · exact allOccupied_selected ts

end

/-- Hiding more prefixes hides what any of them hides. -/
theorem hides_append (label : String) :
    hides (prefixes ++ prefixes') label = (hides prefixes label || hides prefixes' label) :=
  List.any_append

mutual

/-- **Focusing twice is focusing once**, on what neither hides. -/
theorem focus_focus : ∀ t : TextTree,
    focus prefixes' (focus prefixes t) = focus (prefixes ++ prefixes') t
  | .node label children => by
    by_cases hlabel : label = TRACEBACK_LABEL
    · simp only [focus, if_pos hlabel, List.filter_filter, hides_append, Bool.not_or, Bool.and_comm]
    · simp only [focus, if_neg hlabel, selected_selected children]

theorem selected_selected : ∀ ts : List TextTree,
    selected prefixes' (selected prefixes ts) = selected (prefixes ++ prefixes') ts
  | [] => rfl
  | t :: ts => by
    rw [selected, selected, ← focus_focus t, ← selected_selected ts]
    split
    · rw [selected]
    · rename_i hvacant
      rw [vacant_iff.mp (eq_false_of_ne_true hvacant)]
      rfl

end

/-- **What is left out are exactly the hidden frames and the stacks without a frame**: nothing is
added or moved, the exceptions stay, of the frames exactly the others stay, and no empty stack is
left below the root; and the compact tree is the full one without the frames of the service. -/
theorem trace_tree_focused (framework : List String) (service : String) (tree : TextTree)
    (hide_service : Bool) :
    Part (service_trace_tree framework service tree hide_service) tree ∧
    skeleton (service_trace_tree framework service tree hide_service) = skeleton tree ∧
    frames [] (service_trace_tree framework service tree hide_service) =
      (frames [] tree).filter (fun e =>
        !(hides framework e.2.label || (hide_service && hides [service] e.2.label))) ∧
    occupiedBelow (service_trace_tree framework service tree hide_service) = true ∧
    service_trace_tree framework service tree true =
      focus [service] (service_trace_tree framework service tree false) := by
  refine ⟨part_focus tree, skeleton_focus tree, ?_, occupied_focus tree, ?_⟩
  · unfold service_trace_tree
    rw [frames_focus]
    refine congrArg (fun p => (frames [] tree).filter p) (funext fun e => ?_)
    rw [hides_append]
    cases hide_service <;> rfl
  · unfold service_trace_tree
    rw [focus_focus, if_neg Bool.false_ne_true, if_pos rfl, List.append_nil]

end LclFastapi.Diagnostics
