import Mathlib.Data.List.Basic

/-!
# Context variables

The binding of one variable in one context: its value and the tokens of the scopes that are open,
innermost first. `set` opens a scope and keeps the old value as its token, `reset` closes the
innermost scope, and a task starts with a copy of the value and no scope of its own.

`levels` lists the values from the innermost scope outwards. Scopes are properly nested, so opening
and closing scopes above some levels leaves those levels as they are.
-/

namespace LclFastapi.Lib

/-- The binding of a variable in one context. -/
@[ext] structure ContextVar (V : Type*) where
  value : V
  tokens : List V

namespace ContextVar

variable {V : Type*} {x : ContextVar V} {v : V} {l : List V}

/-- A binding outside every scope. -/
def init (v : V) : ContextVar V := ⟨v, []⟩

/-- `token = variable.set(v)`. -/
def set (x : ContextVar V) (v : V) : ContextVar V := ⟨v, x.value :: x.tokens⟩

/-- `variable.reset(token)`, with the token of the innermost scope. -/
def reset (x : ContextVar V) : ContextVar V :=
  match x.tokens with
  | [] => x
  | t :: ts => ⟨t, ts⟩

/-- The variable in a copy of the context. -/
def copy (x : ContextVar V) : ContextVar V := init x.value

def levels (x : ContextVar V) : List V := x.value :: x.tokens

@[simp] theorem levels_init : (init v).levels = [v] := rfl

@[simp] theorem levels_set : (x.set v).levels = v :: x.levels := rfl

@[simp] theorem levels_copy : x.copy.levels = [x.value] := rfl

/-- Closing a scope uncovers the level below. -/
theorem levels_reset (h : x.levels = v :: l) (hl : l ≠ []) : x.reset.levels = l := by
  obtain ⟨value, tokens⟩ := x
  obtain ⟨-, rfl⟩ := List.cons.inj h
  cases tokens with
  | nil => exact absurd rfl hl
  | cons t ts => rfl

theorem value_of_levels (h : x.levels = v :: l) : x.value = v := (List.cons.inj h).1

end ContextVar

end LclFastapi.Lib
