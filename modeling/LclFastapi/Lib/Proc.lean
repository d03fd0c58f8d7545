import Mathlib.Logic.Basic

/-!
# Programs with a state and exceptions

`EStateM ε σ` as an imperative language: an exception keeps the state, and `try`, `catch` and
`finally` are those of Python.

* `final p s`: the state a program ends in, however it ends. `final_tryFinally`: a finalizer runs
  on it.
* `Keeps I p`: a program keeps an invariant however it ends. One rule for each construct.
* `Returns P p`: what a program returns meets `P`.
* `Meets P p Q E`: from states that meet `P`, a program that returns ends in `Q`, and one that
  raises in `E`. One rule for each construct.
-/

namespace LclFastapi.Lib.Proc

variable {ε σ α β : Type} {s s' : σ} {a : α} {e : ε}

/-- The state a program ends in, with a value or with an exception. -/
def final (p : EStateM ε σ α) (s : σ) : σ :=
  match p s with
  | .ok _ s' => s'
  | .error _ s' => s'

theorem get_bind_apply (f : σ → EStateM ε σ α) : (get >>= f) s = f s s := rfl

theorem modify_bind_apply (g : σ → σ) (f : PUnit → EStateM ε σ α) :
    (modify g >>= f) s = f ⟨⟩ (g s) := rfl

@[simp] theorem final_throw : final (throw e : EStateM ε σ α) s = s := rfl

@[simp] theorem final_modify (f : σ → σ) : final (modify f : EStateM ε σ PUnit) s = f s := rfl

@[simp] theorem final_get_bind (f : σ → EStateM ε σ α) : final (get >>= f) s = final (f s) s := rfl

@[simp] theorem final_modify_bind (g : σ → σ) (f : PUnit → EStateM ε σ α) :
    final (modify g >>= f) s = final (f ⟨⟩) (g s) := rfl

theorem bind_ok_apply {p : EStateM ε σ α} {t : σ} (f : α → EStateM ε σ β) (h : p s = .ok a t) :
    (p >>= f) s = f a t := by
  show EStateM.bind p f s = _
  simp only [EStateM.bind, h]

theorem bind_apply_congr {p : EStateM ε σ α} {f g : α → EStateM ε σ β}
    (h : ∀ a t, p s = .ok a t → f a t = g a t) : (p >>= f) s = (p >>= g) s := by
  show EStateM.bind p f s = EStateM.bind p g s
  cases hp : p s with
  | ok a t => simp only [EStateM.bind, hp, h a t hp]
  | error e t => simp only [EStateM.bind, hp]

theorem bind_eq_ok {p : EStateM ε σ α} {f : α → EStateM ε σ β} {b : β}
    (h : (p >>= f) s = .ok b s') :
    ∃ a t, p s = .ok a t ∧ f a t = .ok b s' := by
  have h : EStateM.bind p f s = _ := h
  cases hr : p s with
  | ok a t =>
    simp only [EStateM.bind, hr] at h
    exact ⟨a, t, rfl, h⟩
  | error e t =>
    simp only [EStateM.bind, hr] at h
    cases h

theorem bind_eq_error {p : EStateM ε σ α} {f : α → EStateM ε σ β}
    (h : (p >>= f) s = .error e s') :
    p s = .error e s' ∨ ∃ a t, p s = .ok a t ∧ f a t = .error e s' := by
  have h : EStateM.bind p f s = _ := h
  cases hr : p s with
  | ok a t =>
    simp only [EStateM.bind, hr] at h
    exact .inr ⟨a, t, rfl, h⟩
  | error e t =>
    simp only [EStateM.bind, hr] at h
    cases h
    exact .inl rfl

theorem final_bind_ok {p : EStateM ε σ α} (f : α → EStateM ε σ β) (h : p s = .ok a s') :
    final (p >>= f) s = final (f a) s' := by
  show final (EStateM.bind p f) s = _
  simp only [final, EStateM.bind, h]

theorem final_bind_error {p : EStateM ε σ α} (f : α → EStateM ε σ β) (h : p s = .error e s') :
    final (p >>= f) s = s' := by
  show final (EStateM.bind p f) s = _
  simp only [final, EStateM.bind, h]

theorem final_eq_ok {p : EStateM ε σ α} (h : p s = .ok a s') : final p s = s' := by
  simp only [final, h]

theorem final_eq_error {p : EStateM ε σ α} (h : p s = .error e s') : final p s = s' := by
  simp only [final, h]

/-- **A finalizer runs on the state the program ends in.** -/
theorem final_tryFinally (p : EStateM ε σ α) (q : EStateM ε σ β) :
    final (tryFinally p q) s = final q (final p s) := by
  show final (Prod.fst <$> tryFinally' p fun _ => q) s = _
  simp only [final, Functor.map, EStateM.map, tryFinally']
  cases hp : p s with
  | ok a s' => cases hq : q s' <;> simp only [hq]
  | error e s' => cases hq : q s' <;> simp only [hq]

theorem tryCatch_ok {p : EStateM ε σ α} (h : ε → EStateM ε σ α) (hp : p s = .ok a s') :
    tryCatch p h s = .ok a s' := by
  show EStateM.tryCatch p h s = _
  delta EStateM.tryCatch
  simp only [hp]

theorem tryCatch_error {p : EStateM ε σ α} (h : ε → EStateM ε σ α) (hp : p s = .error e s') :
    tryCatch p h s = h e s' := by
  show EStateM.tryCatch p h s = _
  delta EStateM.tryCatch
  simp only [hp]
  rfl

theorem final_tryCatch_ok {p : EStateM ε σ α} (h : ε → EStateM ε σ α) (hp : p s = .ok a s') :
    final (tryCatch p h) s = s' := by
  simp only [final, tryCatch_ok h hp]

theorem final_tryCatch_error {p : EStateM ε σ α} (h : ε → EStateM ε σ α) (hp : p s = .error e s') :
    final (tryCatch p h) s = final (h e) s' := by
  simp only [final, tryCatch_error h hp]

theorem final_congr {p q : EStateM ε σ α} (h : p s = q s') : final p s = final q s' := by
  simp only [final, h]

theorem final_tryCatch_congr {p q : EStateM ε σ α} {h : ε → EStateM ε σ α} (hp : p s = q s) :
    final (tryCatch p h) s = final (tryCatch q h) s := by
  cases hq : q s with
  | ok a s' => rw [final_tryCatch_ok h hq, final_tryCatch_ok h (hp.trans hq)]
  | error e s' => rw [final_tryCatch_error h hq, final_tryCatch_error h (hp.trans hq)]

/-- What a program raises, if anything. -/
def attempt (p : EStateM ε σ Unit) : EStateM ε σ (Option ε) :=
  tryCatch (do p; return none) fun e => return some e

theorem final_attempt (p : EStateM ε σ Unit) : final (attempt p) s = final p s := by
  cases hp : p s with
  | ok a s' =>
    have hbind : (do p; return none : EStateM ε σ (Option ε)) s = .ok none s' := by
      show EStateM.bind p _ s = _
      simp only [EStateM.bind, hp]
      rfl
    rw [attempt, final_tryCatch_ok _ hbind, final_eq_ok hp]
  | error e s' =>
    have hbind : (do p; return none : EStateM ε σ (Option ε)) s = .error e s' := by
      show EStateM.bind p _ s = _
      simp only [EStateM.bind, hp]
    rw [attempt, final_tryCatch_error _ hbind, final_eq_error hp]
    rfl

/-! ## Invariants -/

/-- The program keeps `I`, however it ends. -/
def Keeps (I : σ → Prop) (p : EStateM ε σ α) : Prop := ∀ s, I s → I (final p s)

namespace Keeps

variable {I : σ → Prop} {p : EStateM ε σ α}

theorem pure : Keeps I (pure a : EStateM ε σ α) := fun _ h => h

theorem throw : Keeps I (throw e : EStateM ε σ α) := fun _ h => h

theorem modify {f : σ → σ} (hf : ∀ s, I s → I (f s)) :
    Keeps I (modify f : EStateM ε σ PUnit) := hf

theorem get_bind {f : σ → EStateM ε σ α} (hf : ∀ s, I s → I (final (f s) s)) :
    Keeps I (get >>= f) := hf

/-- What a first part has brought about is kept by the rest. -/
theorem after {f : α → EStateM ε σ β} (h : I (final p s)) (hf : ∀ a, Keeps I (f a)) :
    I (final (p >>= f) s) := by
  cases hr : p s with
  | ok a s' =>
    rw [final_eq_ok hr] at h
    rw [final_bind_ok f hr]
    exact hf a s' h
  | error e s' =>
    rw [final_eq_error hr] at h
    rwa [final_bind_error f hr]

theorem bind {f : α → EStateM ε σ β} (hp : Keeps I p) (hf : ∀ a, Keeps I (f a)) :
    Keeps I (p >>= f) := fun s h => after (hp s h) hf

theorem attempt {p : EStateM ε σ Unit} (hp : Keeps I p) : Keeps I (attempt p) := by
  intro s h
  rw [final_attempt]
  exact hp s h

/-- What a program has brought about is kept by its handler. -/
theorem handled {h : ε → EStateM ε σ α} (hI : I (final p s)) (hh : ∀ e, Keeps I (h e)) :
    I (final (tryCatch p h) s) := by
  cases hr : p s with
  | ok a s' =>
    rw [final_eq_ok hr] at hI
    rwa [final_tryCatch_ok h hr]
  | error e s' =>
    rw [final_eq_error hr] at hI
    rw [final_tryCatch_error h hr]
    exact hh e s' hI

theorem tryFinally {q : EStateM ε σ β} (hp : Keeps I p) (hq : Keeps I q) :
    Keeps I (tryFinally p q) := by
  intro s h
  rw [final_tryFinally]
  exact hq _ (hp s h)

end Keeps

/-! ## Results -/

/-- What the program returns, where it returns, meets `P`. -/
def Returns (P : α → Prop) (p : EStateM ε σ α) : Prop := ∀ s a s', p s = .ok a s' → P a

namespace Returns

variable {P : α → Prop} {Q : β → Prop} {p : EStateM ε σ α} {f : α → EStateM ε σ β}

theorem pure (h : P a) : Returns P (pure a : EStateM ε σ α) := by
  intro s a' s' hr
  cases hr
  exact h

theorem bind (hp : Returns P p) (hf : ∀ a, P a → Returns Q (f a)) : Returns Q (p >>= f) := by
  intro s b s' hr
  have hr : EStateM.bind p f s = _ := hr
  cases hps : p s with
  | ok a t =>
    simp only [EStateM.bind, hps] at hr
    exact hf a (hp s a t hps) t b s' hr
  | error e t =>
    simp only [EStateM.bind, hps] at hr
    cases hr

/-- What a program goes on with matters only on what the first part can return. -/
theorem bind_congr {g : α → EStateM ε σ β} (hp : Returns P p) (hfg : ∀ a, P a → f a = g a) :
    p >>= f = p >>= g := by
  funext s
  exact bind_apply_congr fun a t hps => by rw [hfg a (hp s a t hps)]

theorem of_bind (hf : ∀ a, Returns Q (f a)) : Returns Q (p >>= f) :=
  bind (P := fun _ => True) (fun _ _ _ _ => trivial) fun a _ => hf a

end Returns

/-! ## Pre- and postconditions -/

/-- From states that meet `P`, the program returns a value and a state that meet `Q`, or it raises
in a state that meets `E`. -/
def Meets (P : σ → Prop) (p : EStateM ε σ α) (Q : α → σ → Prop) (E : σ → Prop) : Prop :=
  ∀ s, P s → (∀ a s', p s = .ok a s' → Q a s') ∧ ∀ e s', p s = .error e s' → E s'

namespace Meets

variable {P : σ → Prop} {Q : α → σ → Prop} {R : β → σ → Prop} {E F : σ → Prop}
  {p : EStateM ε σ α} {f : α → EStateM ε σ β}

theorem pure (h : ∀ s, P s → Q a s) : Meets P (pure a : EStateM ε σ α) Q E := by
  intro s hs
  exact ⟨fun a' s' hr => by cases hr; exact h s hs, fun e s' hr => by cases hr⟩

theorem throw (h : ∀ s, P s → E s) : Meets P (throw e : EStateM ε σ α) Q E := by
  intro s hs
  exact ⟨fun _ _ hr => (by cases hr), fun e' s' hr => by cases hr; exact h s hs⟩

theorem bind (hp : Meets P p Q E) (hf : ∀ a, Meets (Q a) (f a) R E) : Meets P (p >>= f) R E := by
  intro s hs
  obtain ⟨hok, herror⟩ := hp s hs
  refine ⟨fun b s' hr => ?_, fun e s' hr => ?_⟩
  · obtain ⟨a, t, ha, hr⟩ := bind_eq_ok hr
    exact (hf a t (hok a t ha)).1 b s' hr
  · rcases bind_eq_error hr with hr | ⟨a, t, ha, hr⟩
    · exact herror e s' hr
    · exact (hf a t (hok a t ha)).2 e s' hr

theorem get_bind {f : σ → EStateM ε σ β} (hf : ∀ s, Meets (fun t => t = s ∧ P s) (f s) R E) :
    Meets P (get >>= f) R E := fun s hs => hf s s ⟨rfl, hs⟩

theorem modify {g : σ → σ} {Q : PUnit → σ → Prop} (h : ∀ s, P s → Q ⟨⟩ (g s)) :
    Meets P (modify g : EStateM ε σ PUnit) Q E := by
  intro s hs
  exact ⟨fun a s' hr => by cases hr; exact h s hs, fun e s' hr => by cases hr⟩

/-- What the handler is given is what the program raises in. -/
theorem tryCatch {h : ε → EStateM ε σ α} (hp : Meets P p Q F) (hh : ∀ e, Meets F (h e) Q E) :
    Meets P (tryCatch p h) Q E := by
  intro s hs
  obtain ⟨hok, herror⟩ := hp s hs
  cases hr : p s with
  | ok a t =>
    rw [tryCatch_ok h hr]
    exact ⟨fun a' s' he => by cases he; exact hok a t hr, fun e s' he => by cases he⟩
  | error e t =>
    rw [tryCatch_error h hr]
    exact hh e t (herror e t hr)

theorem of_final (h : ∀ s, P s → E (final p s)) : Meets P p (fun _ => E) E := by
  intro s hs
  exact ⟨fun a s' hr => final_eq_ok hr ▸ h s hs, fun e s' hr => final_eq_error hr ▸ h s hs⟩

/-- However the program ends. -/
theorem final (h : Meets P p (fun _ => E) E) {s : σ} (hs : P s) : E (final p s) := by
  obtain ⟨hok, herror⟩ := h s hs
  cases hr : p s with
  | ok a t => exact (final_eq_ok hr).symm ▸ hok a t hr
  | error e t => exact (final_eq_error hr).symm ▸ herror e t hr

end Meets

end LclFastapi.Lib.Proc
