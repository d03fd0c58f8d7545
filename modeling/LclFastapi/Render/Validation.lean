import LclFastapi.Lib.Message
import LclFastapi.Runtime.State
import Mathlib.Data.List.DropRight

/-!
# Validated settings (`render/validation.py`)

The validators of the deployment renderers, over materialized values: an accepted value is text, or
an integer, with what the renderers use of it (`text_value_ok`, `identifier_ok`,
`absolute_path_ok`, `integer_value_ok`). A `ValueError` is its message.

`replace` and `strip` are Python's `str.replace` of one character and `str.strip`.
-/

namespace LclFastapi.Render

open LclFastapi.Runtime (Value)

/-- `ValueError` with its message. -/
abbrev Result (α : Type) := Except String α

/-- `if not b: raise ValueError(message)`. -/
def require (b : Bool) (message : String) : Result Unit :=
  if b then .ok () else .error message

/-! ## Python strings -/

/-- `s.replace(c, t)`, for a single character `c`. -/
def replace (s : String) (c : Char) (t : String) : String :=
  String.ofList (s.toList.flatMap fun x => if x = c then t.toList else [x])

/-- `c.isspace()`. -/
def isspace (c : Char) : Bool :=
  let n := c.toNat
  (9 ≤ n && n ≤ 13) || (28 ≤ n && n ≤ 32) || n = 0x85 || n = 0xA0 || n = 0x1680 ||
    (0x2000 ≤ n && n ≤ 0x200A) || n = 0x2028 || n = 0x2029 || n = 0x202F || n = 0x205F ||
    n = 0x3000

/-- `s.strip()`. -/
def strip (s : String) : String :=
  String.ofList ((s.toList.dropWhile isspace).rdropWhile isspace)

/-! ## Validators -/

/-- `text_value(value, name)`. -/
def text_value (value : Value) (name : String) : Result String :=
  let message := name ++ " must be nonempty text without control characters"
  match value with
  | .str s => if s.toList = [] ∨ s.toList.any (fun c => c.toNat < 32) then .error message else .ok s
  | _ => .error message

/-- `integer_value(value, name, minimum, maximum)`. -/
def integer_value (value : Value) (name : String) (minimum maximum : Int) : Result Int :=
  let message := s!"{name} must be an integer from {minimum} to {maximum}"
  match value with
  | .int n => if minimum ≤ n ∧ n ≤ maximum then .ok n else .error message
  | _ => .error message

/-- `[A-Za-z0-9_][A-Za-z0-9_.-]*`. -/
def identifierText : List Char → Bool
  | [] => false
  | c :: cs =>
    (c.isAlphanum || c == '_') &&
      cs.all fun c => c.isAlphanum || c == '_' || c == '.' || c == '-'

/-- `identifier(value, name)`. -/
def identifier (value : Value) (name : String) : Result String := do
  let result ← text_value value name
  require (identifierText result.toList)
    (name ++ " must contain only letters, digits, underscores, dots or hyphens")
  return result

/-- `PurePosixPath(s).is_absolute()`. -/
def isAbsolute (s : String) : Bool := s.toList.head? == some '/'

/-- `absolute_path(value, name)`. -/
def absolute_path (value : Value) (name : String) : Result String := do
  let result ← text_value value name
  require (isAbsolute result) (name ++ " must be an absolute POSIX path")
  return result

/-! ## What is accepted -/

variable {α β : Type} {value : Value} {name s : String}

theorem bind_ok {x : Result α} {f : α → Result β} {b : β} (h : (x >>= f) = .ok b) :
    ∃ a, x = .ok a ∧ f a = .ok b := by
  cases x with
  | error e => cases h
  | ok a => exact ⟨a, rfl, h⟩

/-- A result without an error. -/
theorem exists_ok {x : Result α} (h : x.toOption.isSome = true) : ∃ a, x = .ok a := by
  cases x with
  | error e => cases h
  | ok a => exact ⟨a, rfl⟩

theorem require_ok {b : Bool} {message : String} {u : Unit} (h : require b message = .ok u) :
    b = true := by
  unfold require at h
  split at h
  · assumption
  · cases h

/-- A line of a configuration file: nonempty, without control characters. -/
structure OneLine (s : String) : Prop where
  nonempty : s.toList ≠ []
  control : ∀ c, c ∈ s.toList → 32 ≤ c.toNat

theorem OneLine.newline (h : OneLine s) : '\n' ∉ s.toList :=
  fun hm => absurd (h.control '\n' hm) (by decide)

theorem text_value_ok (h : text_value value name = .ok s) : value = .str s ∧ OneLine s := by
  unfold text_value at h
  cases value with
  | str t =>
    simp only at h
    split at h
    · cases h
    · rename_i ht
      cases h
      rw [not_or, List.any_eq_true] at ht
      refine ⟨rfl, ht.1, fun c hc => ?_⟩
      by_contra hlt
      exact ht.2 ⟨c, hc, decide_eq_true (by omega)⟩
  | _ => cases h

theorem integer_value_ok {n minimum maximum : Int}
    (h : integer_value value name minimum maximum = .ok n) :
    value = .int n ∧ minimum ≤ n ∧ n ≤ maximum := by
  unfold integer_value at h
  cases value with
  | int m =>
    simp only at h
    split at h
    · rename_i hm
      cases h
      exact ⟨rfl, hm⟩
    · cases h
  | _ => cases h

theorem identifier_ok (h : identifier value name = .ok s) :
    value = .str s ∧ OneLine s ∧ identifierText s.toList = true := by
  obtain ⟨t, ht, h⟩ := bind_ok h
  obtain ⟨u, hu, h⟩ := bind_ok h
  cases h
  exact ⟨(text_value_ok ht).1, (text_value_ok ht).2, require_ok hu⟩

theorem absolute_path_ok (h : absolute_path value name = .ok s) :
    value = .str s ∧ OneLine s ∧ s.toList.head? = some '/' := by
  obtain ⟨t, ht, h⟩ := bind_ok h
  obtain ⟨u, hu, h⟩ := bind_ok h
  cases h
  exact ⟨(text_value_ok ht).1, (text_value_ok ht).2, beq_iff_eq.mp (require_ok hu)⟩

/-- The decimal text of a nonnegative integer. -/
theorem isDigit_of_mem_toString {n : Int} (hn : 0 ≤ n) {c : Char} (hc : c ∈ (toString n).toList) :
    c.isDigit = true := by
  obtain ⟨m, rfl⟩ := Int.eq_ofNat_of_zero_le hn
  exact Lib.Message.isDigit_of_mem_toString (n := m) hc

theorem toString_ne_nil {n : Int} (hn : 0 ≤ n) : (toString n).toList ≠ [] := by
  obtain ⟨m, rfl⟩ := Int.eq_ofNat_of_zero_le hn
  show m.repr.toList ≠ []
  rw [Nat.toList_repr]
  exact Nat.toDigits_ne_nil

end LclFastapi.Render
