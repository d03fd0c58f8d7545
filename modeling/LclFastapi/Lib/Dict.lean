import Mathlib.Data.List.Nodup

/-!
# Insertion-ordered maps

`Dict` is a map with distinct keys that remembers the order in which its keys were inserted, as
Python's `dict` does: overwriting a key keeps its position, deleting it and inserting it again
moves it to the end. Iteration is over `entries`.

* `get?_setdefault`, `get?_set`, `get?_erase`: what an operation does to every key.
* `get?_mapWithKey`: a loop that overwrites each key with a value of its own.
* `get?_update`, `keys_update`: one map written over another.
* `mem_entries`: iteration meets exactly the bindings `get?` finds.
* `distinct`: the deduplication `list({key(x): x for x in xs}.values())`, for elements that are
  their own key.
-/

namespace LclFastapi.Lib

/-- A map in insertion order. -/
structure Dict (κ α : Type*) where
  entries : List (κ × α)
  nodup : (entries.map Prod.fst).Nodup

namespace Dict

variable {κ α : Type*}

/-- No entry. -/
def empty : Dict κ α := ⟨[], List.nodup_nil⟩

/-- The keys, in the order of insertion. -/
def keys (d : Dict κ α) : List κ := d.entries.map Prod.fst

/-- The values, in the order of insertion. -/
def values (d : Dict κ α) : List α := d.entries.map Prod.snd

variable [DecidableEq κ] {d : Dict κ α} {k k' : κ} {v : α}

/-- `d.get(k)`. -/
def get? (d : Dict κ α) (k : κ) : Option α :=
  (d.entries.find? fun e => e.1 = k).map Prod.snd

/-- `del d[k]`, and `d.pop(k, None)`. -/
def erase (d : Dict κ α) (k : κ) : Dict κ α where
  entries := d.entries.filter fun e => e.1 ≠ k
  nodup := d.nodup.sublist (List.filter_sublist.map Prod.fst)

/-- A new key, at the end. -/
def push (d : Dict κ α) (k : κ) (v : α) (h : k ∉ d.keys) : Dict κ α where
  entries := d.entries ++ [(k, v)]
  nodup := by
    rw [List.map_append, List.map_singleton, ← List.concat_eq_append]
    exact d.nodup.concat h

/-- The binding of a key replaced in place. -/
def replace (d : Dict κ α) (k : κ) (v : α) : Dict κ α where
  entries := d.entries.map fun e => if e.1 = k then (k, v) else e
  nodup := by
    have h : (d.entries.map fun e => if e.1 = k then (k, v) else e).map Prod.fst =
        d.entries.map Prod.fst := by
      rw [List.map_map]
      refine List.map_congr_left fun e _ => ?_
      by_cases he : e.1 = k <;> simp [he]
    rw [h]
    exact d.nodup

/-- `d.setdefault(k, v)`. -/
def setdefault (d : Dict κ α) (k : κ) (v : α) : Dict κ α :=
  if h : k ∈ d.keys then d else d.push k v h

/-- `d[k] = v`. -/
def set (d : Dict κ α) (k : κ) (v : α) : Dict κ α :=
  if h : k ∈ d.keys then d.replace k v else d.push k v h

/-! ## Lookup -/

@[simp] theorem get?_empty : (empty : Dict κ α).get? k = none := rfl

theorem get?_eq_none : d.get? k = none ↔ k ∉ d.keys := by
  simp only [get?, keys, Option.map_eq_none_iff, List.find?_eq_none, List.mem_map, not_exists,
    not_and, decide_eq_true_eq]

/-- Iteration meets exactly the bindings that lookup finds. -/
theorem mem_entries : (k, v) ∈ d.entries ↔ d.get? k = some v := by
  obtain ⟨l, hl⟩ := d
  show (k, v) ∈ l ↔ (l.find? fun e => e.1 = k).map Prod.snd = some v
  induction l with
  | nil => simp
  | cons e l ih =>
    obtain ⟨hnew, hl⟩ := List.nodup_cons.mp hl
    by_cases he : e.1 = k
    · have hout : (k, v) ∉ l := fun h => hnew (he ▸ List.mem_map.mpr ⟨(k, v), h, rfl⟩)
      simp only [List.mem_cons, hout, or_false, List.find?_cons, he, decide_true, Option.map_some,
        Option.some.injEq]
      obtain ⟨k', v'⟩ := e
      simp only [Prod.mk.injEq] at he ⊢
      exact ⟨fun h => h.2.symm, fun h => ⟨he.symm, h.symm⟩⟩
    · have hne : (k, v) ≠ e := fun h => he (by rw [← h])
      simp only [List.mem_cons, hne, false_or, List.find?_cons, he, decide_false]
      exact ih hl

theorem get?_push (h : k ∉ d.keys) :
    (d.push k v h).get? k' = if k' = k then some v else d.get? k' := by
  by_cases hk : k' = k
  · subst hk
    rw [if_pos rfl, ← mem_entries]
    exact List.mem_append_right _ (List.mem_singleton_self _)
  · simp [get?, push, List.find?_append, hk, Ne.symm hk]

theorem get?_replace (h : k ∈ d.keys) :
    (d.replace k v).get? k' = if k' = k then some v else d.get? k' := by
  by_cases hk : k' = k
  · subst hk
    rw [if_pos rfl, ← mem_entries]
    obtain ⟨e, he, hek⟩ := List.mem_map.mp h
    exact List.mem_map.mpr ⟨e, he, by rw [if_pos hek]⟩
  · rw [if_neg hk]
    refine Option.ext fun w => ?_
    rw [← mem_entries, ← mem_entries]
    refine ⟨fun hm => ?_, fun hm => List.mem_map.mpr ⟨(k', w), hm, by simp [hk]⟩⟩
    obtain ⟨e, he, heq⟩ := List.mem_map.mp hm
    by_cases hek : e.1 = k
    · rw [if_pos hek] at heq
      exact absurd (congrArg Prod.fst heq).symm hk
    · rw [if_neg hek] at heq
      exact heq ▸ he

/-- `setdefault` never overwrites. -/
theorem get?_setdefault :
    (d.setdefault k v).get? k' = if k' = k then some ((d.get? k).getD v) else d.get? k' := by
  unfold setdefault
  split
  · rename_i h
    by_cases hk : k' = k
    · obtain ⟨w, hw⟩ := Option.ne_none_iff_exists'.mp fun hn => get?_eq_none.mp hn h
      simp [hk, hw]
    · simp [hk]
  · rename_i h
    rw [get?_push h, get?_eq_none.mpr h]
    rfl

theorem get?_set : (d.set k v).get? k' = if k' = k then some v else d.get? k' := by
  unfold set
  split
  · rename_i h
    exact get?_replace h
  · rename_i h
    exact get?_push h

/-- `{key(x): x for x in xs}` for distinct keys. -/
theorem entries_foldl_set {key : α → κ} {xs : List α} (hnodup : (xs.map key).Nodup)
    (hnew : ∀ x ∈ xs, key x ∉ d.keys) :
    (xs.foldl (fun d x => d.set (key x) x) d).entries =
      d.entries ++ xs.map fun x => (key x, x) := by
  induction xs generalizing d with
  | nil => simp
  | cons x xs ih =>
    obtain ⟨hfirst, hnodup⟩ := List.nodup_cons.mp hnodup
    obtain ⟨hx, hnew⟩ := List.forall_mem_cons.mp hnew
    have hentries : (d.set (key x) x).entries = d.entries ++ [(key x, x)] := by
      rw [set, dif_neg hx]
      rfl
    have hrest : ∀ y ∈ xs, key y ∉ (d.set (key x) x).keys := by
      intro y hy hin
      rw [keys, hentries, List.map_append, List.mem_append, List.map_singleton,
        List.mem_singleton] at hin
      rcases hin with hin | hin
      · exact hnew y hy hin
      · exact hfirst (List.mem_map.mpr ⟨y, hy, hin⟩)
    rw [List.foldl_cons, ih hnodup hrest, hentries, List.append_assoc]
    rfl

theorem get?_erase : (d.erase k).get? k' = if k' = k then none else d.get? k' := by
  refine Option.ext fun w => ?_
  rw [← mem_entries]
  by_cases hk : k' = k
  · simp [erase, hk]
  · simp [erase, hk, ← mem_entries]

/-- Every binding recomputed, `for k, v in d.items(): d[k] = f(k, v)`. -/
def mapWithKey (d : Dict κ α) (f : κ → α → α) : Dict κ α where
  entries := d.entries.map fun e => (e.1, f e.1 e.2)
  nodup := by
    rw [List.map_map]
    exact d.nodup

theorem get?_mapWithKey {f : κ → α → α} : (d.mapWithKey f).get? k = (d.get? k).map (f k) := by
  refine Option.ext fun w => ?_
  rw [← mem_entries, Option.map_eq_some_iff]
  constructor
  · intro h
    obtain ⟨e, he, heq⟩ := List.mem_map.mp h
    obtain ⟨rfl, rfl⟩ := Prod.mk.inj heq
    exact ⟨e.2, mem_entries.mp he, rfl⟩
  · rintro ⟨v, hv, rfl⟩
    exact List.mem_map.mpr ⟨(k, v), mem_entries.mpr hv, rfl⟩

/-- `d.update(e)`. -/
def update (d e : Dict κ α) : Dict κ α := e.entries.foldl (fun d x => d.set x.1 x.2) d

theorem keys_set : (d.set k v).keys = if k ∈ d.keys then d.keys else d.keys ++ [k] := by
  unfold set
  split
  · unfold keys replace
    rw [List.map_map]
    refine List.map_congr_left fun e _ => ?_
    by_cases he : e.1 = k <;> simp [he]
  · exact List.map_append

/-- What is written anew comes last, in its own order. -/
theorem keys_update (d e : Dict κ α) :
    (d.update e).keys = d.keys ++ e.keys.filter fun k => k ∉ d.keys := by
  obtain ⟨l, hl⟩ := e
  show (l.foldl (fun d x => d.set x.1 x.2) d).keys =
    d.keys ++ (l.map Prod.fst).filter fun k => k ∉ d.keys
  induction l generalizing d with
  | nil => simp
  | cons x l ih =>
    obtain ⟨hnew, hl⟩ := List.nodup_cons.mp hl
    rw [List.foldl_cons, ih _ hl, keys_set, List.map_cons]
    by_cases hx : x.1 ∈ d.keys
    · rw [if_pos hx, List.filter_cons_of_neg (by simpa using hx)]
    · rw [if_neg hx, List.filter_cons_of_pos (by simpa using hx), List.append_assoc,
        List.singleton_append]
      have hother : ∀ k ∈ l.map Prod.fst, k ≠ x.1 := fun k hk he => hnew (he ▸ hk)
      refine congrArg (fun ks => d.keys ++ x.1 :: ks) (List.filter_congr fun k hk => ?_)
      simp [hother k hk]

theorem get?_update (d e : Dict κ α) : (d.update e).get? k = (e.get? k).or (d.get? k) := by
  obtain ⟨l, hl⟩ := e
  show (l.foldl (fun d x => d.set x.1 x.2) d).get? k =
    ((l.find? fun x => x.1 = k).map Prod.snd).or (d.get? k)
  induction l generalizing d with
  | nil => rfl
  | cons x l ih =>
    obtain ⟨hnew, hl⟩ := List.nodup_cons.mp hl
    rw [List.foldl_cons, ih _ hl, get?_set, List.find?_cons]
    by_cases hk : x.1 = k
    · subst hk
      have hnone : (l.find? fun y => y.1 = x.1) = none := by
        rw [List.find?_eq_none]
        intro y hy he
        exact hnew (List.mem_map.mpr ⟨y, hy, of_decide_eq_true he⟩)
      simp [hnone]
    · simp [hk, Ne.symm hk]

/-- Over disjoint keys, the bindings follow each other. -/
theorem entries_update {e : Dict κ α} (h : ∀ k ∈ e.keys, k ∉ d.keys) :
    (d.update e).entries = d.entries ++ e.entries := by
  obtain ⟨l, hl⟩ := e
  show (l.foldl (fun d x => d.set x.1 x.2) d).entries = d.entries ++ l
  have h : ∀ k ∈ l.map Prod.fst, k ∉ d.keys := h
  clear * - h hl
  induction l generalizing d with
  | nil => simp
  | cons x l ih =>
    obtain ⟨hnew, hl⟩ := List.nodup_cons.mp hl
    obtain ⟨hx, h⟩ := List.forall_mem_cons.mp h
    have hentries : (d.set x.1 x.2).entries = d.entries ++ [x] := by
      rw [set, dif_neg hx]
      rfl
    have hrest : ∀ k ∈ l.map Prod.fst, k ∉ (d.set x.1 x.2).keys := by
      intro k hk
      rw [keys_set, if_neg hx, List.mem_append, List.mem_singleton]
      rintro (hin | rfl)
      · exact h k hk hin
      · exact hnew hk
    rw [List.foldl_cons, ih hl hrest, hentries, List.append_assoc]
    rfl

/-! ## Deduplication -/

/-- Every value is its own key. -/
def SelfKeyed (d : Dict κ κ) : Prop := ∀ k v, d.get? k = some v → v = k

theorem SelfKeyed.set {d : Dict κ κ} (h : d.SelfKeyed) : (d.set k k).SelfKeyed := by
  intro k' v hv
  rw [get?_set] at hv
  split at hv
  · rename_i hk
    rw [hk]
    exact (Option.some.inj hv).symm
  · exact h k' v hv

theorem SelfKeyed.mem_values {d : Dict κ κ} (h : d.SelfKeyed) :
    k ∈ d.values ↔ d.get? k = some k := by
  constructor
  · intro hk
    obtain ⟨⟨k', v⟩, he, hv⟩ := List.mem_map.mp hk
    have hget := mem_entries.mp he
    obtain rfl := h k' v hget
    exact hv ▸ hget
  · exact fun hk => List.mem_map.mpr ⟨(k, k), mem_entries.mpr hk, rfl⟩

theorem SelfKeyed.nodup_values {d : Dict κ κ} (h : d.SelfKeyed) : d.values.Nodup := by
  have hkeys : d.values = d.keys :=
    List.map_congr_left fun e he => h e.1 e.2 (mem_entries.mp he)
  rw [hkeys]
  exact d.nodup

/-- `list({x: x for x in xs}.values())`. -/
def distinct (xs : List κ) : List κ :=
  (xs.foldl (fun d x => d.set x x) (empty : Dict κ κ)).values

theorem SelfKeyed.mem_foldl {d : Dict κ κ} (h : d.SelfKeyed) (xs : List κ) :
    k ∈ (xs.foldl (fun d x => d.set x x) d).values ↔ k ∈ d.values ∨ k ∈ xs := by
  induction xs generalizing d with
  | nil => simp
  | cons x xs ih =>
    rw [List.foldl_cons, ih h.set, h.set.mem_values, h.mem_values, get?_set, List.mem_cons,
      ← or_assoc]
    by_cases hk : k = x <;> simp [hk]

theorem SelfKeyed.foldl {d : Dict κ κ} (h : d.SelfKeyed) (xs : List κ) :
    (xs.foldl (fun d x => d.set x x) d).SelfKeyed := by
  induction xs generalizing d with
  | nil => exact h
  | cons x xs ih => exact ih h.set

theorem nodup_distinct (xs : List κ) : (distinct xs).Nodup := by
  have h : (empty : Dict κ κ).SelfKeyed := fun _ _ hv => by simp at hv
  exact (h.foldl xs).nodup_values

@[simp] theorem mem_distinct {xs : List κ} : k ∈ distinct xs ↔ k ∈ xs := by
  have h : (empty : Dict κ κ).SelfKeyed := fun _ _ hv => by simp at hv
  rw [distinct, h.mem_foldl, h.mem_values]
  simp

end Dict

end LclFastapi.Lib
