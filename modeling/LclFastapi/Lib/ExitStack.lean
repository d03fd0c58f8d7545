import LclFastapi.Lib.Proc

/-!
# Context managers and exit stacks

Python's `with` statement and its exit stacks over `EStateM ε σ`.

* `Exit`: an `__exit__`. It gets the exception in flight, if any, and returns whether to suppress
  it.
* `StackM`: the body of `with ExitStack() as stack`. Beside its result it has the exits it has
  pushed, the last first; they stay pushed when it raises.
* `unwind`: the loop of `ExitStack.__exit__`. Every exit is called, with what is in flight then.

What a body has to undo is said by a `key` of the state.

* `Leaves key P p`: from states whose key meets `P`, the program ends with the key it began with,
  however it ends.
* `Opens key P p Q`: the exits that a body has pushed lead back to the key it began with
  (`Undoes`), however it ends; where it returns, the key meets `Q`.
* **`closing_leaves`**: an exit stack leaves the key of a body that opens. One rule for each
  construct of a body.
-/

namespace LclFastapi.Lib.ExitStack

open Proc (bind_eq_ok bind_eq_error bind_ok_apply final final_eq_ok final_eq_error)

variable {ε σ α β : Type} {K : Type*}

/-! ## With statements -/

/-- `__exit__`. -/
abbrev Exit (ε σ : Type) := Option ε → EStateM ε σ Bool

structure ContextManager (ε σ β : Type) where
  enter : EStateM ε σ β
  exit : β → Exit ε σ

/-- How a program ends. -/
def outcome (p : EStateM ε σ α) : EStateM ε σ (Except ε α) := fun s =>
  match p s with
  | .ok a s' => .ok (.ok a) s'
  | .error e s' => .ok (.error e) s'

/-- The end of a `with` statement; `none` where an exception is suppressed. -/
def Exit.leave (exit : Exit ε σ) : Except ε α → EStateM ε σ (Option α)
  | .ok a => do
    let _ ← exit none
    return some a
  | .error e => do
    if ← exit (some e) then return none else throw e

/-- `with cm as b: body`. -/
def ContextManager.within (cm : ContextManager ε σ β) (body : β → EStateM ε σ α) :
    EStateM ε σ (Option α) := do
  let b ← cm.enter
  (cm.exit b).leave (← outcome (body b))

/-! ## Exit stacks -/

/-- `ExitStack.__exit__`, with what is in flight in the end. -/
def unwind : List (Exit ε σ) → Option ε → EStateM ε σ (Option ε)
  | [], pending => pure pending
  | exit :: exits, pending => do
    match ← outcome (exit pending) with
    | .ok true => unwind exits none
    | .ok false => unwind exits pending
    | .error e => unwind exits (some e)

/-- The body of an exit stack. -/
def StackM (ε σ α : Type) := σ → Except ε α × σ × List (Exit ε σ)

namespace StackM

instance : Monad (StackM ε σ) where
  pure a s := (.ok a, s, [])
  bind p f s :=
    match p s with
    | (.ok a, s', exits) => ((f a s').1, (f a s').2.1, (f a s').2.2 ++ exits)
    | (.error e, s', exits) => (.error e, s', exits)

theorem bind_ok {body : StackM ε σ α} {f : α → StackM ε σ β} {s : σ} {a : α}
    (h : (body s).1 = .ok a) : (body >>= f) s = ((f a (body s).2.1).1, (f a (body s).2.1).2.1,
      (f a (body s).2.1).2.2 ++ (body s).2.2) := by
  rcases hb : body s with ⟨r, s', exits⟩
  rw [hb] at h
  cases h
  simp only [Bind.bind, hb]

theorem bind_error {body : StackM ε σ α} {f : α → StackM ε σ β} {s : σ} {e : ε}
    (h : (body s).1 = .error e) : (body >>= f) s = (.error e, (body s).2.1, (body s).2.2) := by
  rcases hb : body s with ⟨r, s', exits⟩
  rw [hb] at h
  cases h
  simp only [Bind.bind, hb]

/-- A statement that pushes nothing. -/
def lift (p : EStateM ε σ α) : StackM ε σ α := fun s =>
  match p s with
  | .ok a s' => (.ok a, s', [])
  | .error e s' => (.error e, s', [])

/-- `stack.enter_context(cm)`. -/
def enter_context (cm : ContextManager ε σ β) : StackM ε σ β := fun s =>
  match cm.enter s with
  | .ok b s' => (.ok b, s', [cm.exit b])
  | .error e s' => (.error e, s', [])

/-- `with cm: body`, where the body pushes exits. -/
def within (cm : ContextManager ε σ β) (body : StackM ε σ α) : StackM ε σ (Option α) := fun s =>
  match cm.enter s with
  | .error e s' => (.error e, s', [])
  | .ok b s' =>
    match lift ((cm.exit b).leave (body s').1) (body s').2.1 with
    | (r, s'', _) => (r, s'', (body s').2.2)

end StackM

/-- What is left of the body of a stack after its exits. -/
def settle : Except ε α → Option ε → EStateM ε σ (Option α)
  | .ok a, none => pure (some a)
  | .error _, none => pure none
  | _, some e => throw e

/-- `with ExitStack() as stack: body`, with the unwinding inside of `around`. -/
def closing (around : EStateM ε σ (Option α) → EStateM ε σ (Option α)) (body : StackM ε σ α) :
    EStateM ε σ (Option α) := fun s =>
  match body s with
  | (r, s', exits) =>
    around (unwind exits (match r with | .ok _ => none | .error e => some e) >>= settle r) s'

def exitStack (body : StackM ε σ α) : EStateM ε σ (Option α) := closing id body

/-! ## What a program ends with -/

variable {key : σ → K} {P Q R : K → Prop} {k k' : K} {s : σ}
variable {p : EStateM ε σ α} {cm : ContextManager ε σ β} {exit : Exit ε σ}
variable {exits : List (Exit ε σ)}

/-- A program goes on from where an outcome was taken. -/
theorem outcome_bind_apply (f : Except ε α → EStateM ε σ β) :
    ∃ r, (outcome p >>= f) s = f r (final p s) := by
  show ∃ r, EStateM.bind (outcome p) f s = _
  simp only [EStateM.bind, outcome, final]
  cases p s with
  | ok a s' => exact ⟨.ok a, rfl⟩
  | error e s' => exact ⟨.error e, rfl⟩

theorem final_bind_pure (f : α → β) : final (p >>= fun a => pure (f a)) s = final p s := by
  cases hr : p s with
  | ok a s' => rw [Proc.final_bind_ok _ hr, final_eq_ok hr]; rfl
  | error e s' => rw [Proc.final_bind_error _ hr, final_eq_error hr]

theorem lift_snd : (StackM.lift p s).2 = (final p s, []) := by
  unfold StackM.lift final
  cases p s <;> rfl

/-- What is left of an exit stack does nothing more. -/
theorem final_settle (r : Except ε α) (pending : Option ε) : final (settle r pending) s = s := by
  cases r <;> cases pending <;> rfl

/-- Control goes on after an exception only where the exit suppresses it. -/
theorem suppressed_of_leave {e : ε} {a : Option α} {s' : σ}
    (h : exit.leave (.error e) s = .ok a s') : exit (some e) s = .ok true s' := by
  unfold Exit.leave at h
  cases hr : exit (some e) s with
  | ok suppressed s'' =>
    simp only [Bind.bind, EStateM.bind, hr] at h
    cases suppressed with
    | true => cases h; rfl
    | false => cases h
  | error e' s'' =>
    simp only [Bind.bind, EStateM.bind, hr] at h
    cases h

/-! ## Keys -/

/-- The program ends with the key it began with. -/
def Leaves (key : σ → K) (P : K → Prop) (p : EStateM ε σ α) : Prop :=
  ∀ s, P (key s) → key (final p s) = key s

namespace Leaves

theorem of_ok {a : α} {s' : σ} (h : Leaves key P p) (hs : P (key s)) (hr : p s = .ok a s') :
    key s' = key s := final_eq_ok hr ▸ h s hs

theorem of_error {e : ε} {s' : σ} (h : Leaves key P p) (hs : P (key s))
    (hr : p s = .error e s') : key s' = key s := final_eq_error hr ▸ h s hs

theorem pure (a : α) : Leaves key P (pure a : EStateM ε σ α) := fun _ _ => rfl

theorem throw (e : ε) : Leaves key P (throw e : EStateM ε σ α) := fun _ _ => rfl

theorem modify {f : σ → σ} (hf : ∀ s, P (key s) → key (f s) = key s) :
    Leaves key P (modify f : EStateM ε σ PUnit) := hf

theorem get_bind {f : σ → EStateM ε σ α} (hf : ∀ s, Leaves key P (f s)) :
    Leaves key P (get >>= f) := fun s hs => hf s s hs

theorem bind {f : α → EStateM ε σ β} (hp : Leaves key P p) (hf : ∀ a, Leaves key P (f a)) :
    Leaves key P (p >>= f) := by
  intro s hs
  cases hr : p s with
  | ok a s' =>
    have hps := hp.of_ok hs hr
    rw [Proc.final_bind_ok f hr, hf a s' (hps.symm ▸ hs), hps]
  | error e s' => rw [Proc.final_bind_error f hr, hp.of_error hs hr]

theorem tryFinally {q : EStateM ε σ β} (hp : Leaves key P p) (hq : Leaves key P q) :
    Leaves key P (tryFinally p q) := by
  intro s hs
  have hps := hp s hs
  rw [Proc.final_tryFinally, hq _ (hps.symm ▸ hs), hps]

theorem tryCatch {h : ε → EStateM ε σ α} (hp : Leaves key P p) (hh : ∀ e, Leaves key P (h e)) :
    Leaves key P (tryCatch p h) := by
  intro s hs
  cases hr : p s with
  | ok a s' => rw [Proc.final_tryCatch_ok h hr, hp.of_ok hs hr]
  | error e s' =>
    have hps := hp.of_error hs hr
    rw [Proc.final_tryCatch_error h hr, hh e s' (hps.symm ▸ hs), hps]

theorem mono {P' : K → Prop} (h : Leaves key P p) (hP : ∀ k, P' k → P k) : Leaves key P' p :=
  fun s hs => h s (hP _ hs)

end Leaves

/-- The exit leads from the key `k` to `k'`, whatever is in flight. -/
def Closes (key : σ → K) (exit : Exit ε σ) (k k' : K) : Prop :=
  ∀ e s, key s = k → key (final (exit e) s) = k'

theorem Closes.leave (h : Closes key exit k k') (r : Except ε α) (hs : key s = k) :
    key (final (exit.leave r) s) = k' := by
  cases r with
  | ok a =>
    show key (final (exit none >>= fun _ => pure (some a)) s) = k'
    have hx := h none s hs
    cases hr : exit none s with
    | ok b s' => rwa [Proc.final_bind_ok _ hr, ← final_eq_ok hr]
    | error e s' => rwa [Proc.final_bind_error _ hr, ← final_eq_error hr]
  | error e =>
    have hx := h (some e) s hs
    unfold Exit.leave
    cases hr : exit (some e) s with
    | ok suppressed s' =>
      rw [final_eq_ok hr] at hx
      rw [Proc.final_bind_ok _ hr]
      cases suppressed <;> exact hx
    | error e' s' => rwa [Proc.final_bind_error _ hr, ← final_eq_error hr]

/-- The manager restores the key that it finds, after a body that leaves its own. -/
structure Restores (key : σ → K) (P : K → Prop) (cm : ContextManager ε σ β) : Prop where
  error : ∀ s e s', P (key s) → cm.enter s = .error e s' → key s' = key s
  ok : ∀ s b s', P (key s) → cm.enter s = .ok b s' → Closes key (cm.exit b) (key s') (key s)

theorem Restores.of_leaves (he : Leaves key P cm.enter)
    (hx : ∀ b e, Leaves key (fun _ => True) (cm.exit b e)) : Restores key P cm where
  error _ _ _ hs hr := he.of_error hs hr
  ok _ b _ hs hr e t ht := (hx b e t trivial).trans (ht.trans (he.of_ok hs hr))

theorem Restores.within {body : β → EStateM ε σ α} (h : Restores key P cm)
    (hb : ∀ b, Leaves key (fun _ => True) (body b)) : Leaves key P (cm.within body) := by
  intro s hs
  unfold ContextManager.within
  cases hr : cm.enter s with
  | error e s' =>
    rw [Proc.final_bind_error _ hr]
    exact h.error s e s' hs hr
  | ok b s' =>
    rw [Proc.final_bind_ok _ hr]
    obtain ⟨r, hr'⟩ := outcome_bind_apply (p := body b) (s := s') (cm.exit b).leave
    rw [Proc.final_congr hr']
    exact (h.ok s b s' hs hr).leave r (hb b s' trivial)

theorem meets_outcome {P F E : σ → Prop} (h : Proc.Meets P p (fun _ => F) F) :
    Proc.Meets P (outcome p) (fun _ => F) E := by
  intro s hs
  obtain ⟨hok, herror⟩ := h s hs
  unfold outcome
  cases hr : p s with
  | ok a t => exact ⟨fun r s' he => by cases he; exact hok a t hr, fun e s' he => by cases he⟩
  | error e t => exact ⟨fun r s' he => by cases he; exact herror e t hr, fun e s' he => by cases he⟩

/-- **The rule of the `with` statement**: the exit gets what the body leaves, however it ends. -/
theorem meets_within {body : β → EStateM ε σ α} {P F E : σ → Prop} {R : β → σ → Prop}
    (he : Proc.Meets P cm.enter R E) (hb : ∀ b, Proc.Meets (R b) (body b) (fun _ => F) F)
    (hx : ∀ b e, Proc.Meets F (cm.exit b e) (fun _ => E) E) :
    Proc.Meets P (cm.within body) (fun _ => E) E := by
  refine .bind he fun b => .bind (meets_outcome (hb b)) fun r => ?_
  cases r with
  | ok a => exact .bind (hx b none) fun _ => .pure fun _ h => h
  | error e =>
    refine .bind (hx b (some e)) fun suppressed => ?_
    cases suppressed with
    | true => exact .pure fun _ h => h
    | false => exact .throw fun _ h => h

/-- The exits lead from the key `k` to `k'`, one after the other. -/
def Undoes (key : σ → K) : List (Exit ε σ) → K → K → Prop
  | [], k, k' => k = k'
  | exit :: exits, k, k' => ∃ m, Closes key exit k m ∧ Undoes key exits m k'

theorem Undoes.append {exits' : List (Exit ε σ)} {m : K} (h : Undoes key exits k m)
    (h' : Undoes key exits' m k') : Undoes key (exits ++ exits') k k' := by
  induction exits generalizing k with
  | nil => exact h.symm ▸ h'
  | cons exit exits ih =>
    obtain ⟨n, hn, h⟩ := h
    exact ⟨n, hn, ih h⟩

/-- **The unwinding undoes what is on the stack**, whatever the exits raise or suppress. -/
theorem Undoes.unwind (h : Undoes key exits k k') (pending : Option ε) (hs : key s = k) :
    key (final (unwind exits pending) s) = k' := by
  induction exits generalizing k s pending with
  | nil => exact hs.trans h
  | cons exit exits ih =>
    obtain ⟨m, hm, h⟩ := h
    have hs' : key (final (exit pending) s) = m := hm pending s hs
    unfold ExitStack.unwind
    obtain ⟨r, hr⟩ := outcome_bind_apply (p := exit pending) (s := s) fun
      | .ok true => ExitStack.unwind exits none
      | .ok false => ExitStack.unwind exits pending
      | .error e => ExitStack.unwind exits (some e)
    refine (congrArg key (Proc.final_congr hr)).trans ?_
    match r with
    | .ok true => exact ih h none hs'
    | .ok false => exact ih h pending hs'
    | .error e => exact ih h (some e) hs'

theorem Undoes.settled (h : Undoes key exits k k') (pending : Option ε) (r : Except ε α)
    (hs : key s = k) : key (final (ExitStack.unwind exits pending >>= settle r) s) = k' := by
  have hk := h.unwind pending hs
  cases hr : ExitStack.unwind exits pending s with
  | ok a s' =>
    rw [final_eq_ok hr] at hk
    rwa [Proc.final_bind_ok _ hr, final_settle]
  | error e s' =>
    rw [final_eq_error hr] at hk
    rwa [Proc.final_bind_error _ hr]

/-! ## Bodies of exit stacks -/

/-- The exits that the body has pushed lead back to where it began. -/
def Opens (key : σ → K) (P : K → Prop) (body : StackM ε σ α) (Q : K → Prop) : Prop :=
  ∀ s, P (key s) → Undoes key (body s).2.2 (key (body s).2.1) (key s) ∧
    ∀ a, (body s).1 = .ok a → Q (key (body s).2.1)

namespace Opens

variable {body : StackM ε σ α}

theorem bind {f : α → StackM ε σ β} (hp : Opens key P body Q) (hf : ∀ a, Opens key Q (f a) R) :
    Opens key P (body >>= f) R := by
  intro s hs
  obtain ⟨hu, hq⟩ := hp s hs
  cases hr : (body s).1 with
  | ok a =>
    obtain ⟨hu', hr'⟩ := hf a (body s).2.1 (hq a hr)
    rw [StackM.bind_ok hr]
    exact ⟨hu'.append hu, hr'⟩
  | error e =>
    rw [StackM.bind_error hr]
    exact ⟨hu, fun _ h => nomatch h⟩

theorem pure (a : α) : Opens key P (pure a : StackM ε σ α) P :=
  fun _ hs => ⟨rfl, fun _ _ => hs⟩

theorem lift (hp : Leaves key P p) : Opens key P (StackM.lift p) P := by
  intro s hs
  unfold StackM.lift
  cases hr : p s with
  | ok a s' =>
    have hps := hp.of_ok hs hr
    exact ⟨hps, fun _ _ => hps.symm ▸ hs⟩
  | error e s' => exact ⟨hp.of_error hs hr, fun _ h => nomatch h⟩

theorem mono {P' Q' : K → Prop} (h : Opens key P body Q) (hP : ∀ k, P' k → P k)
    (hQ : ∀ k, Q k → Q' k) : Opens key P' body Q' := fun s hs =>
  ⟨(h s (hP _ hs)).1, fun a ha => hQ _ ((h s (hP _ hs)).2 a ha)⟩

theorem enter_context (h : Restores key P cm)
    (hQ : ∀ s b s', P (key s) → cm.enter s = .ok b s' → Q (key s')) :
    Opens key P (StackM.enter_context cm) Q := by
  intro s hs
  unfold StackM.enter_context
  cases hr : cm.enter s with
  | ok b s' => exact ⟨⟨_, h.ok s b s' hs hr, rfl⟩, fun _ _ => hQ s b s' hs hr⟩
  | error e s' => exact ⟨h.error s e s' hs hr, fun _ h => nomatch h⟩

/-- A `with` statement whose manager suppresses nothing and does not concern the key. -/
theorem within (he : Leaves key P cm.enter) (hx : ∀ b e, Leaves key (fun _ => True) (cm.exit b e))
    (hraises : ∀ b e s s', cm.exit b (some e) s ≠ .ok true s') (hp : Opens key P body Q) :
    Opens key P (StackM.within cm body) Q := by
  intro s hs
  unfold StackM.within
  cases hr : cm.enter s with
  | error e s' => exact ⟨he.of_error hs hr, fun _ h => nomatch h⟩
  | ok b s' =>
    have hes := he.of_ok hs hr
    obtain ⟨hu, hq⟩ := hp s' (hes.symm ▸ hs)
    have hk := Closes.leave (fun e s h => (hx b e s trivial).trans h) (body s').1
      (rfl : key (body s').2.1 = _)
    cases hl : (cm.exit b).leave (body s').1 (body s').2.1 with
    | error e s'' =>
      rw [final_eq_error hl] at hk
      simp only [StackM.lift, hl, hk]
      exact ⟨hes ▸ hu, fun _ h => nomatch h⟩
    | ok a s'' =>
      rw [final_eq_ok hl] at hk
      simp only [StackM.lift, hl, hk]
      refine ⟨hes ▸ hu, fun _ _ => ?_⟩
      cases hb : (body s').1 with
      | ok a => exact hq a hb
      | error e => exact absurd (suppressed_of_leave (hb ▸ hl)) (hraises b e _ _)

end Opens

/-- The surroundings of an unwinding run it once, and do not concern the key otherwise. -/
def Wraps (key : σ → K) (I : σ → Prop)
    (around : EStateM ε σ (Option α) → EStateM ε σ (Option α)) : Prop :=
  ∀ q s, I s → ∃ s', key s' = key s ∧ key (final (around q) s) = key (final q s')

theorem wraps_id : Wraps key (fun _ => True) (id : EStateM ε σ (Option α) → _) :=
  fun _ s _ => ⟨s, rfl, rfl⟩

/-- **An exit stack leaves what its body has opened.** -/
theorem closing_leaves {around : EStateM ε σ (Option α) → EStateM ε σ (Option α)}
    {body : StackM ε σ α} {I : σ → Prop} (h : Opens key P body Q)
    (hI : ∀ s, P (key s) → I (body s).2.1) (ha : Wraps key I around) :
    Leaves key P (closing around body) := by
  intro s hs
  obtain ⟨hu, -⟩ := h s hs
  obtain ⟨s', hs', hq⟩ := ha (unwind (body s).2.2
    (match (body s).1 with | .ok _ => none | .error e => some e) >>= settle (body s).1) _ (hI s hs)
  exact hq.trans (hu.settled _ _ hs')

theorem exitStack_leaves {body : StackM ε σ α} (h : Opens key P body Q) :
    Leaves key P (exitStack body) :=
  closing_leaves h (fun _ _ => trivial) wraps_id

/-! ## Bodies that do not concern a key -/

/-- Neither the body nor an exit that it has pushed concerns the key. -/
def Quiet (key : σ → K) (body : StackM ε σ α) : Prop :=
  ∀ s, key (body s).2.1 = key s ∧
    ∀ exit ∈ (body s).2.2, ∀ e, Leaves key (fun _ => True) (exit e)

namespace Quiet

variable {body : StackM ε σ α}

theorem pure (a : α) : Quiet key (pure a : StackM ε σ α) :=
  fun _ => ⟨rfl, fun _ h => absurd h List.not_mem_nil⟩

theorem bind {f : α → StackM ε σ β} (hp : Quiet key body) (hf : ∀ a, Quiet key (f a)) :
    Quiet key (body >>= f) := by
  intro s
  obtain ⟨hs, hx⟩ := hp s
  cases hr : (body s).1 with
  | ok a =>
    obtain ⟨hs', hx'⟩ := hf a (body s).2.1
    rw [StackM.bind_ok hr]
    exact ⟨hs'.trans hs, fun exit h => (List.mem_append.mp h).elim (hx' exit) (hx exit)⟩
  | error e =>
    rw [StackM.bind_error hr]
    exact ⟨hs, hx⟩

theorem lift (hp : Leaves key (fun _ => True) p) : Quiet key (StackM.lift p) := by
  intro s
  unfold StackM.lift
  cases hr : p s with
  | ok a s' => exact ⟨hp.of_ok trivial hr, fun _ h => absurd h List.not_mem_nil⟩
  | error e s' => exact ⟨hp.of_error trivial hr, fun _ h => absurd h List.not_mem_nil⟩

theorem enter_context (he : Leaves key (fun _ => True) cm.enter)
    (hx : ∀ b e, Leaves key (fun _ => True) (cm.exit b e)) :
    Quiet key (StackM.enter_context cm) := by
  intro s
  unfold StackM.enter_context
  cases hr : cm.enter s with
  | ok b s' =>
    refine ⟨he.of_ok trivial hr, fun exit h => ?_⟩
    rw [List.mem_singleton.mp h]
    exact hx b
  | error e s' => exact ⟨he.of_error trivial hr, fun _ h => absurd h List.not_mem_nil⟩

/-- A `with` statement whose manager restores the key. -/
theorem within (h : Restores key (fun _ => True) cm) (hp : Quiet key body) :
    Quiet key (StackM.within cm body) := by
  intro s
  unfold StackM.within
  cases hr : cm.enter s with
  | error e s' => exact ⟨h.error s e s' trivial hr, fun _ h => absurd h List.not_mem_nil⟩
  | ok b s' =>
    obtain ⟨hs, hx⟩ := hp s'
    have hk := (h.ok s b s' trivial hr).leave (body s').1 hs
    cases hl : (cm.exit b).leave (body s').1 (body s').2.1 with
    | ok a s'' =>
      rw [final_eq_ok hl] at hk
      simp only [StackM.lift, hl]
      exact ⟨hk, hx⟩
    | error e s'' =>
      rw [final_eq_error hl] at hk
      simp only [StackM.lift, hl]
      exact ⟨hk, hx⟩

theorem unwind {exits : List (Exit ε σ)}
    (h : ∀ exit ∈ exits, ∀ e, Leaves key (fun _ => True) (exit e)) (k : K) :
    Undoes key exits k k := by
  induction exits with
  | nil => rfl
  | cons exit exits ih =>
    refine ⟨k, fun e s hs => ?_, ih fun x hx => h x (List.mem_cons_of_mem _ hx)⟩
    exact (h exit List.mem_cons_self e s trivial).trans hs

/-- An exit stack does not concern the key if its body does not. -/
theorem closing {around : EStateM ε σ (Option α) → EStateM ε σ (Option α)} (hp : Quiet key body)
    (ha : ∀ q, Leaves key (fun _ => True) q → Leaves key (fun _ => True) (around q)) :
    Leaves key (fun _ => True) (closing around body) := by
  intro s _
  obtain ⟨hs, hx⟩ := hp s
  refine (ha _ (fun s' _ => ?_) _ trivial).trans hs
  exact (unwind hx (key s')).settled _ _ rfl

end Quiet

/-! ## Bodies that end with a key -/

/-- Wherever the body begins, its exits lead to the key `k`. -/
def Settles (key : σ → K) (k : K) (body : StackM ε σ α) : Prop :=
  ∀ s, Undoes key (body s).2.2 (key (body s).2.1) k

namespace Settles

variable {body : StackM ε σ α}

theorem lift (h : ∀ s, key (final p s) = k) : Settles key k (StackM.lift p) := by
  intro s
  rw [lift_snd]
  exact h s

/-- Nothing raises before a part that ends with the key. -/
theorem after {f : α → StackM ε σ β} (hok : ∀ s, ∃ a, (body s).1 = .ok a)
    (hexits : ∀ s, ∀ exit ∈ (body s).2.2, ∀ e, Leaves key (fun _ => True) (exit e))
    (hf : ∀ a, Settles key k (f a)) : Settles key k (body >>= f) := by
  intro s
  obtain ⟨a, ha⟩ := hok s
  rw [StackM.bind_ok ha]
  exact (hf a (body s).2.1).append (Quiet.unwind (hexits s) k)

theorem opens (h : Settles key k body) : Opens key (fun k' => k' = k) body fun _ => True := by
  intro s hs
  rw [hs]
  exact ⟨h s, fun _ _ => trivial⟩

end Settles

end LclFastapi.Lib.ExitStack
