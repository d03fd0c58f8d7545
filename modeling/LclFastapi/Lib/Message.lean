import LclFastapi.Lib.Json
import Mathlib.Data.List.Pairwise

/-!
# Reading log messages

A log message is a fixed head with numbers in it. Its reader takes the head off, then the digits of
a number, and goes on with the rest.

* `after?_append`, `after?_apart`: a head is found where it was written, and is not found in a
  message with a head apart from it.
* **`numberAfter?_append`**: a number is read back, when no digit follows it.
* `numbered?_append`: the same for a number that ends the message.
-/

namespace LclFastapi.Lib.Message

/-- What follows the head of a text, when it begins with it. -/
def after? (head : String) (text : List Char) : Option (List Char) := text.dropPrefix? head.toList

/-- The number that a text begins with, and what follows it. -/
def number? (text : List Char) : Option (Nat × List Char) :=
  if (text.takeWhile Char.isDigit).isEmpty then none
  else some (Nat.ofDigitChars 10 (text.takeWhile Char.isDigit) 0, text.dropWhile Char.isDigit)

/-- The number behind a head, and what follows it. -/
def numberAfter? (head : String) (text : List Char) : Option (Nat × List Char) :=
  (after? head text).bind number?

/-- The number that ends a message, behind a head. -/
def numbered? (head message : String) : Option Nat :=
  (numberAfter? head message.toList).bind fun r => if r.2.isEmpty then some r.1 else none

/-! ## Heads -/

theorem after?_append (head : String) (rest : List Char) :
    after? head (head.toList ++ rest) = some rest :=
  List.dropPrefix?_append_of_beq rest BEq.rfl

/-- Two heads neither of which begins with the other. -/
def Apart (head other : String) : Prop :=
  ¬ head.toList <+: other.toList ∧ ¬ other.toList <+: head.toList

instance (head other : String) : Decidable (Apart head other) :=
  inferInstanceAs (Decidable (¬ head.toList <+: other.toList ∧ ¬ other.toList <+: head.toList))

theorem after?_apart {head other : String} (rest : List Char) (h : Apart head other) :
    after? head (other.toList ++ rest) = none := by
  rw [after?, Option.eq_none_iff_forall_not_mem]
  intro tail htail
  obtain ⟨front, hsplit, hfront⟩ := List.dropPrefix?_eq_some_iff.mp htail
  rw [eq_of_beq hfront] at hsplit
  have hhead : head.toList <+: other.toList ++ rest := ⟨tail, hsplit.symm⟩
  rcases List.prefix_or_prefix_of_prefix hhead (List.prefix_append _ _) with hp | hp
  · exact h.1 hp
  · exact h.2 hp

/-! ## Numbers -/

variable {n : Nat} {rest : List Char}

theorem isDigit_of_mem_toString {c : Char} (hc : c ∈ (toString n).toList) : c.isDigit = true := by
  replace hc : c ∈ n.repr.toList := hc
  rw [Nat.toList_repr] at hc
  exact Nat.isDigit_of_mem_toDigits (by decide) (by decide) hc

/-- No digit follows. -/
def Ends (rest : List Char) : Prop := rest.head?.all (fun c => !c.isDigit) = true

theorem number?_append (hrest : Ends rest) :
    number? ((toString n).toList ++ rest) = some (n, rest) := by
  obtain ⟨htake, hdrop⟩ := Json.span_append (fun _ hc => isDigit_of_mem_toString (n := n) hc) hrest
  have hrepr : (toString n).toList = Nat.toDigits 10 n := Nat.toList_repr
  have hne : (Nat.toDigits 10 n).isEmpty = false := by simp
  rw [number?, htake, hdrop, hrepr, hne, Nat.ofDigitChars_ten_toDigits]
  rfl

/-- **A number is read back**, when no digit follows it. -/
theorem numberAfter?_append (head : String) (hrest : Ends rest) :
    numberAfter? head (head.toList ++ ((toString n).toList ++ rest)) = some (n, rest) := by
  rw [numberAfter?, after?_append, Option.bind_some, number?_append hrest]

theorem numberAfter?_apart {head other : String} (rest : List Char) (h : Apart head other) :
    numberAfter? head (other.toList ++ rest) = none := by
  rw [numberAfter?, after?_apart rest h, Option.bind_none]

/-- The number at the end of a message is read back. -/
theorem numbered?_append (head : String) : numbered? head (head ++ toString n) = some n := by
  have htext : (head ++ toString n).toList = head.toList ++ ((toString n).toList ++ []) := by
    rw [String.toList_append, List.append_nil]
  have hend : Ends [] := rfl
  rw [numbered?, htext, numberAfter?_append head hend]
  rfl

theorem numbered?_apart {head other message : String} (h : Apart head other) :
    numbered? head (other ++ message) = none := by
  rw [numbered?, String.toList_append, numberAfter?_apart _ h, Option.bind_none]

end LclFastapi.Lib.Message
