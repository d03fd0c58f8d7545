import Mathlib.Data.List.TakeWhile
import Mathlib.Tactic.IntervalCases

/-!
# JSON text of flat objects

The ASCII form that a JSON encoder gives an object of scalars, and a reader of it. Strings are
lists of code points, as in languages whose strings may hold surrogates; `\u` escapes are UTF-16
units, so a code point beyond the basic plane is written as two of them.

* `join` puts adjacent surrogate units together. `join_units`: written as units and joined, a
  string loses only the pairs of surrogates that it held as two code points.
* `scanString_stringText`, **`scanObject_objectText`**: reading inverts writing, up to `join`.
* `objectText_printable`: a text has no control character, hence no line break.
-/

namespace LclFastapi.Lib.Json

/-! ## Code points and UTF-16 units -/

/-- A string: its code points. -/
abbrev Str := List Nat

/-- The code points of Unicode, surrogates included. -/
def Valid (s : Str) : Prop := ∀ c ∈ s, c < 0x110000

/-- A high surrogate. -/
def isHigh (c : Nat) : Bool := decide (0xD800 ≤ c) && decide (c < 0xDC00)

/-- A low surrogate. -/
def isLow (c : Nat) : Bool := decide (0xDC00 ≤ c) && decide (c < 0xE000)

/-- The code point of a surrogate pair. -/
def combine (hi lo : Nat) : Nat := 0x10000 + (hi - 0xD800) * 0x400 + (lo - 0xDC00)

/-- The UTF-16 units of a code point. -/
def units (c : Nat) : List Nat :=
  if c < 0x10000 then [c] else [0xD800 + (c - 0x10000) / 0x400, 0xDC00 + (c - 0x10000) % 0x400]

/-- A high surrogate and the low one after it become one code point. -/
def join : List Nat → List Nat
  | [] => []
  | [c] => [c]
  | c :: d :: rest =>
    if isHigh c && isLow d then combine c d :: join rest else c :: join (d :: rest)

variable {c d : Nat} {s rest : List Nat}

theorem join_cons (h : isHigh c = false) : join (c :: s) = c :: join s := by
  cases s with
  | nil => rfl
  | cons d s => simp [join, h]

theorem join_cons_of_not_low (h : isLow d = false) : join (c :: d :: s) = c :: join (d :: s) := by
  simp [join, h]

theorem join_pair (hc : isHigh c = true) (hd : isLow d = true) :
    join (c :: d :: s) = combine c d :: join s := by
  simp [join, hc, hd]

/-- A string is kept when no high surrogate is directly before a low one. -/
theorem join_eq_self (h : s.IsChain fun c d => (isHigh c && isLow d) = false) : join s = s := by
  induction s using join.induct with
  | case1 => rfl
  | case2 c => rfl
  | case3 c d rest hpair ih =>
    rw [(List.isChain_cons_cons.mp h).1] at hpair
    cases hpair
  | case4 c d rest hpair ih => rw [join, if_neg hpair, ih (List.isChain_cons_cons.mp h).2]

/-- The two units of a code point beyond the basic plane. -/
theorem join_units_astral (hc : 0x10000 ≤ c) (hv : c < 0x110000) :
    join (units c ++ s) = c :: join s := by
  have hunits : units c =
      [0xD800 + (c - 0x10000) / 0x400, 0xDC00 + (c - 0x10000) % 0x400] := by
    simp [units, Nat.not_lt.mpr hc]
  have hhigh : isHigh (0xD800 + (c - 0x10000) / 0x400) = true := by
    simp only [isHigh, Bool.and_eq_true, decide_eq_true_eq]
    omega
  have hlow : isLow (0xDC00 + (c - 0x10000) % 0x400) = true := by
    simp only [isLow, Bool.and_eq_true, decide_eq_true_eq]
    omega
  have hcombine :
      combine (0xD800 + (c - 0x10000) / 0x400) (0xDC00 + (c - 0x10000) % 0x400) = c := by
    unfold combine
    omega
  rw [hunits, List.cons_append, List.cons_append, List.nil_append, join_pair hhigh hlow, hcombine]

theorem units_of_lt (h : c < 0x10000) : units c = [c] := by
  simp [units, h]

theorem not_high_of_ge (h : 0x10000 ≤ c) : isHigh c = false := by
  simp only [isHigh, Bool.and_eq_false_iff, decide_eq_false_iff_not]
  omega

/-- A code point that is no low surrogate is not written with one in front. -/
theorem units_head (h : isLow c = false) (hv : c < 0x110000) :
    ∃ x t, units c = x :: t ∧ isLow x = false := by
  unfold units
  split
  · exact ⟨c, [], rfl, h⟩
  · refine ⟨_, _, rfl, ?_⟩
    simp only [isLow, Bool.and_eq_false_iff, decide_eq_false_iff_not]
    omega

/-- **Only pairs of surrogates are lost.** -/
theorem join_units (h : Valid s) : join (s.flatMap units) = join s := by
  induction s using join.induct with
  | case1 => rfl
  | case2 c =>
    have hc : c < 0x110000 := h c (.head _)
    rcases Nat.lt_or_ge c 0x10000 with hlt | hge
    · simp [units_of_lt hlt]
    · have hjoin := join_units_astral (s := []) hge hc
      rw [List.append_nil] at hjoin
      rw [List.flatMap_singleton, hjoin]
      rfl
  | case3 c d rest hpair ih =>
    obtain ⟨hhigh, hlow⟩ := Bool.and_eq_true_iff.mp hpair
    have hc : c < 0x10000 := by
      by_contra hge
      simp [not_high_of_ge (Nat.not_lt.mp hge)] at hhigh
    have hd : d < 0x10000 := by
      simp only [isLow, Bool.and_eq_true, decide_eq_true_eq] at hlow
      omega
    have hrest := ih fun x hx => h x (.tail _ (.tail _ hx))
    rw [join_pair hhigh hlow, ← hrest, List.flatMap_cons, List.flatMap_cons, units_of_lt hc,
      units_of_lt hd]
    exact join_pair hhigh hlow
  | case4 c d rest hpair ih =>
    have hrest := ih fun x hx => h x (.tail _ hx)
    have hjoin : join (c :: d :: rest) = c :: join (d :: rest) := by simp [join, hpair]
    rw [hjoin, ← hrest, List.flatMap_cons]
    rcases Nat.lt_or_ge c 0x10000 with hlt | hge
    · rw [units_of_lt hlt]
      rcases Bool.and_eq_false_iff.mp (Bool.not_eq_true _ ▸ hpair) with hnot | hnot
      · exact join_cons hnot
      · obtain ⟨x, t, hunits, hx⟩ := units_head hnot (h d (.tail _ (.head _)))
        rw [List.flatMap_cons, hunits]
        exact join_cons_of_not_low hx
    · exact join_units_astral hge (h c (.head _))

/-! ## String literals -/

/-- `\uXXXX`. -/
def escapeUnit (u : Nat) : List Char :=
  ['\\', 'u', Nat.digitChar (u / 0x1000 % 16), Nat.digitChar (u / 0x100 % 16),
    Nat.digitChar (u / 0x10 % 16), Nat.digitChar (u % 16)]

/-- What a code point is written as. -/
def escape (c : Nat) : List Char :=
  if c = 34 then ['\\', '"']
  else if c = 92 then ['\\', '\\']
  else if c = 10 then ['\\', 'n']
  else if c = 13 then ['\\', 'r']
  else if c = 9 then ['\\', 't']
  else if c = 12 then ['\\', 'f']
  else if c = 8 then ['\\', 'b']
  else if 32 ≤ c ∧ c ≤ 126 then [Char.ofNat c]
  else (units c).flatMap escapeUnit

/-- The text of a string. -/
def stringText (s : Str) : List Char := '"' :: s.flatMap escape ++ ['"']

/-- The value of a hexadecimal digit. -/
def hexValue (c : Char) : Option Nat :=
  if '0' ≤ c ∧ c ≤ '9' then some (c.toNat - '0'.toNat)
  else if 'a' ≤ c ∧ c ≤ 'f' then some (c.toNat - 'a'.toNat + 10)
  else if 'A' ≤ c ∧ c ≤ 'F' then some (c.toNat - 'A'.toNat + 10)
  else none

/-- The code point of a short escape. -/
def unescape (c : Char) : Option Nat :=
  match c with
  | '"' => some 34
  | '\\' => some 92
  | '/' => some 47
  | 'b' => some 8
  | 'f' => some 12
  | 'n' => some 10
  | 'r' => some 13
  | 't' => some 9
  | _ => none

/-- The units of a string literal after its opening quote, and what follows the closing one. -/
def scanUnits : List Char → Option (List Nat × List Char)
  | [] => none
  | '"' :: rest => some ([], rest)
  | '\\' :: 'u' :: a :: b :: c :: d :: rest => do
    let u := (← hexValue a) * 0x1000 + (← hexValue b) * 0x100 + (← hexValue c) * 0x10 +
      (← hexValue d)
    let (us, rest) ← scanUnits rest
    return (u :: us, rest)
  | '\\' :: e :: rest => do
    let u ← unescape e
    let (us, rest) ← scanUnits rest
    return (u :: us, rest)
  | c :: rest =>
    if c.toNat < 32 then none
    else do
      let (us, rest) ← scanUnits rest
      return (c.toNat :: us, rest)

/-- A string at the head of a text. -/
def scanString : List Char → Option (Str × List Char)
  | '"' :: text => (scanUnits text).map fun p => (join p.1, p.2)
  | _ => none

variable {tail : List Char}

theorem hexValue_digitChar : ∀ n < 16, hexValue (Nat.digitChar n) = some n := by
  decide

theorem scanUnits_escapeUnit {u : Nat} (hu : u < 0x10000) :
    scanUnits (escapeUnit u ++ tail) = (scanUnits tail).map fun p => (u :: p.1, p.2) := by
  have hdigits : u / 0x1000 % 16 * 0x1000 + u / 0x100 % 16 * 0x100 + u / 0x10 % 16 * 0x10 + u % 16
      = u := by omega
  have hlt (n : Nat) : n % 16 < 16 := Nat.mod_lt n (by decide)
  simp only [escapeUnit, List.cons_append, List.nil_append, scanUnits,
    hexValue_digitChar _ (hlt _), Option.bind_eq_bind, Option.bind_some, hdigits]
  cases scanUnits tail <;> rfl

theorem scanUnits_escapeUnits {us : List Nat} (hu : ∀ u ∈ us, u < 0x10000) :
    scanUnits (us.flatMap escapeUnit ++ tail) =
      (scanUnits tail).map fun p => (us ++ p.1, p.2) := by
  induction us with
  | nil => simp
  | cons u us ih =>
    obtain ⟨hu, hus⟩ := List.forall_mem_cons.mp hu
    rw [List.flatMap_cons, List.append_assoc, scanUnits_escapeUnit hu, ih hus]
    cases scanUnits tail <;> rfl

theorem units_lt (hv : c < 0x110000) : ∀ u ∈ units c, u < 0x10000 := by
  intro u hu
  unfold units at hu
  split at hu
  · rw [List.mem_singleton.mp hu]
    assumption
  · rcases List.mem_cons.mp hu with rfl | hu
    · omega
    · rw [List.mem_singleton.mp hu]
      omega

/-- A printable character stands for itself. -/
theorem scanUnits_char (hc : 32 ≤ c ∧ c ≤ 126) (hquote : c ≠ 34) (hslash : c ≠ 92) :
    scanUnits (Char.ofNat c :: tail) = (scanUnits tail).map fun p => (c :: p.1, p.2) := by
  obtain ⟨hlow, hhigh⟩ := hc
  have htoNat : (Char.ofNat c).toNat = c := by
    interval_cases c <;> rfl
  have hne (d : Char) (hd : c ≠ d.toNat) : Char.ofNat c ≠ d := fun he => hd (he ▸ htoNat.symm)
  rw [scanUnits]
  · rw [htoNat, if_neg (Nat.not_lt.mpr hlow)]
    cases scanUnits tail <;> rfl
  · exact hne '"' hquote
  · exact fun _ _ _ _ _ he _ => hne '\\' hslash he
  · exact fun _ _ he _ => hne '\\' hslash he

theorem scanUnits_short {e : Char} {u : Nat} (h : unescape e = some u) :
    scanUnits ('\\' :: e :: tail) = (scanUnits tail).map fun p => (u :: p.1, p.2) := by
  rw [scanUnits]
  · rw [h]
    cases scanUnits tail <;> rfl
  · rintro a b c d rest he -
    rw [he] at h
    cases h

/-- What a code point is written as is read as its units. -/
theorem scanUnits_escape (hv : c < 0x110000) :
    scanUnits (escape c ++ tail) = (scanUnits tail).map fun p => (units c ++ p.1, p.2) := by
  have hone (h : c < 0x10000) : units c = [c] := units_of_lt h
  unfold escape
  split
  · subst c
    exact scanUnits_short rfl
  split
  · subst c
    exact scanUnits_short rfl
  split
  · subst c
    exact scanUnits_short rfl
  split
  · subst c
    exact scanUnits_short rfl
  split
  · subst c
    exact scanUnits_short rfl
  split
  · subst c
    exact scanUnits_short rfl
  split
  · subst c
    exact scanUnits_short rfl
  split
  · rename_i hc
    rw [hone (by omega)]
    exact scanUnits_char hc ‹_› ‹_›
  · exact scanUnits_escapeUnits (units_lt hv)

theorem scanUnits_flatMap_escape (hv : Valid s) :
    scanUnits (s.flatMap escape ++ tail) =
      (scanUnits tail).map fun p => (s.flatMap units ++ p.1, p.2) := by
  induction s with
  | nil => simp
  | cons c s ih =>
    obtain ⟨hc, hs⟩ := List.forall_mem_cons.mp hv
    rw [List.flatMap_cons, List.append_assoc, scanUnits_escape hc, ih hs]
    cases scanUnits tail <;> simp

/-- **Reading a string literal**: the string, with its pairs of surrogates joined. -/
theorem scanString_stringText (hv : Valid s) :
    scanString (stringText s ++ tail) = some (join s, tail) := by
  have hend : scanUnits (['"'] ++ tail) = some ([], tail) := rfl
  have hbody : scanUnits (s.flatMap escape ++ (['"'] ++ tail)) = some (s.flatMap units, tail) := by
    rw [scanUnits_flatMap_escape hv, hend]
    simp
  show (scanUnits ((s.flatMap escape ++ ['"']) ++ tail)).map _ = _
  rw [List.append_assoc, hbody, Option.map_some, join_units hv]

/-! ## Scalars -/

/-- A character of a number with a fraction or an exponent. -/
def isNumberChar (c : Char) : Bool := c.isDigit || "+-.eE".toList.contains c

/-- `e+16`, `E-5`. -/
def isExponent : List Char → Bool
  | e :: text =>
    (e == 'e' || e == 'E') &&
      match text with
      | '+' :: ds | '-' :: ds | ds => !ds.isEmpty && ds.all Char.isDigit
  | [] => false

/-- A number with a fraction or an exponent, after its sign. -/
def isFraction (body : List Char) : Bool :=
  let whole := body.takeWhile Char.isDigit
  (whole == ['0'] || !whole.isEmpty && whole.head? != some '0') &&
    match body.dropWhile Char.isDigit with
    | '.' :: rest =>
      !(rest.takeWhile Char.isDigit).isEmpty &&
        ((rest.dropWhile Char.isDigit).isEmpty || isExponent (rest.dropWhile Char.isDigit))
    | rest => isExponent rest

/-- A number with a fraction or an exponent, or a constant that stands for no finite number. -/
def isFloat (text : List Char) : Bool :=
  text == "NaN".toList || text == "Infinity".toList || text == "-Infinity".toList ||
    text.all isNumberChar && isFraction (if text.head? = some '-' then text.tail else text)

/-- A floating-point number, as the literal it is written as. -/
structure Float where
  text : List Char
  ok : isFloat text = true
  deriving DecidableEq

/-- A value without parts. -/
inductive Scalar where
  | null
  | bool (b : Bool)
  | int (n : Int)
  | float (x : Float)
  | str (s : Str)
  deriving DecidableEq

/-- The text of an integer. -/
def intText : Int → List Char
  | .ofNat n => Nat.toDigits 10 n
  | .negSucc n => '-' :: Nat.toDigits 10 (n + 1)

/-- The text of a scalar. -/
def Scalar.text : Scalar → List Char
  | .null => ['n', 'u', 'l', 'l']
  | .bool true => ['t', 'r', 'u', 'e']
  | .bool false => ['f', 'a', 'l', 's', 'e']
  | .int n => intText n
  | .float x => x.text
  | .str s => stringText s

/-- An integer that is converted to and from text: one of at most 4300 digits. -/
def short (n : Int) : Bool := decide ((Nat.toDigits 10 n.natAbs).length ≤ 4300)

/-- A scalar that has a text which is read again. -/
def Scalar.Valid : Scalar → Prop
  | .int n => short n = true
  | .str s => Json.Valid s
  | _ => True

instance : DecidablePred Scalar.Valid := fun v => by
  cases v <;> unfold Scalar.Valid Json.Valid <;> infer_instance

/-- What a scalar is after writing and reading. -/
def Scalar.join : Scalar → Scalar
  | .str s => .str (Json.join s)
  | v => v

/-- The number that some digits stand for. -/
def readInt : List Char → Int
  | '-' :: ds => -(Nat.ofDigitChars 10 ds 0 : Nat)
  | ds => (Nat.ofDigitChars 10 ds 0 : Nat)

/-- What a literal other than a string stands for; an integer is read in its canonical form. -/
def literal (token : List Char) : Option Scalar :=
  if token = Scalar.text .null then some .null
  else if token = Scalar.text (.bool true) then some (.bool true)
  else if token = Scalar.text (.bool false) then some (.bool false)
  else if intText (readInt token) = token ∧ short (readInt token) = true then
    some (.int (readInt token))
  else if h : isFloat token = true then some (.float ⟨token, h⟩)
  else none

/-- The characters after a scalar. -/
def isEnd (c : Char) : Bool := c == ',' || c == '}'

/-- A scalar at the head of a text. -/
def scanScalar (text : List Char) : Option (Scalar × List Char) :=
  if text.head? = some '"' then (scanString text).map fun p => (.str p.1, p.2)
  else (literal (text.takeWhile fun c => !isEnd c)).map fun v =>
    (v, text.dropWhile fun c => !isEnd c)

theorem isDigit_of_mem_toDigits {n : Nat} {x : Char} (h : x ∈ Nat.toDigits 10 n) :
    x.isDigit = true :=
  Nat.isDigit_of_mem_toDigits (by decide) (by decide) h

theorem toDigits_ne_nil {n : Nat} : Nat.toDigits 10 n ≠ [] := by
  rw [Nat.toDigits_eq_if (by decide)]
  split <;> simp

theorem readInt_intText (n : Int) : readInt (intText n) = n := by
  cases n with
  | ofNat n =>
    have hminus : ∀ ds, Nat.toDigits 10 n ≠ '-' :: ds := fun ds h => by
      have hdigit := isDigit_of_mem_toDigits (h ▸ List.mem_cons_self)
      revert hdigit
      decide
    unfold intText readInt
    split
    · exact absurd ‹_› (hminus _)
    · simp
  | negSucc n =>
    simp only [intText, readInt, Nat.ofDigitChars_ten_toDigits]
    rfl

/-- An integer is digits, after a sign. -/
theorem intText_body (n : Int) :
    ∃ ds, ds ≠ [] ∧ (∀ c ∈ ds, c.isDigit = true) ∧ (intText n = ds ∨ intText n = '-' :: ds) := by
  cases n with
  | ofNat n => exact ⟨_, toDigits_ne_nil, fun _ => isDigit_of_mem_toDigits, .inl rfl⟩
  | negSucc n => exact ⟨_, toDigits_ne_nil, fun _ => isDigit_of_mem_toDigits, .inr rfl⟩

theorem ne_of_isDigit {c d : Char} (hd : d.isDigit = true) (hc : c.isDigit = false) : d ≠ c := by
  rintro rfl
  rw [hd] at hc
  cases hc

theorem isFraction_digits {ds : List Char} (h : ∀ c ∈ ds, c.isDigit = true) :
    isFraction ds = false := by
  have hrest : ds.dropWhile Char.isDigit = [] := List.dropWhile_eq_nil_iff.mpr h
  simp [isFraction, hrest, isExponent]

/-- An integer is no number with a fraction. -/
theorem isFloat_intText (n : Int) : isFloat (intText n) = false := by
  obtain ⟨ds, hne, hds, htext⟩ := intText_body n
  obtain ⟨d, ds, rfl⟩ := List.exists_cons_of_ne_nil hne
  have hd : d.isDigit = true := hds d (.head _)
  have hN : d ≠ 'N' := ne_of_isDigit hd (by decide)
  have hI : d ≠ 'I' := ne_of_isDigit hd (by decide)
  have hminus : d ≠ '-' := ne_of_isDigit hd (by decide)
  have hfraction := isFraction_digits hds
  rcases htext with htext | htext <;>
    simp [isFloat, htext, hN, hI, hminus, hfraction]

theorem literal_int {n : Int} (hn : short n = true) : literal (intText n) = some (.int n) := by
  obtain ⟨ds, hne, hds, htext⟩ := intText_body n
  obtain ⟨d, ds, rfl⟩ := List.exists_cons_of_ne_nil hne
  have hd : d.isDigit = true := hds d (.head _)
  have hword (c : Char) (cs : List Char) (hc : c.isDigit = false) (hm : c ≠ '-') :
      intText n ≠ c :: cs := fun he => by
    rcases htext with htext | htext
    · exact ne_of_isDigit hd hc (List.cons.inj (htext.symm.trans he)).1
    · exact hm (List.cons.inj (htext.symm.trans he)).1.symm
  have hnull : intText n ≠ Scalar.text .null := hword 'n' _ (by decide) (by decide)
  have htrue : intText n ≠ Scalar.text (.bool true) := hword 't' _ (by decide) (by decide)
  have hfalse : intText n ≠ Scalar.text (.bool false) := hword 'f' _ (by decide) (by decide)
  unfold literal
  rw [if_neg hnull, if_neg htrue, if_neg hfalse, readInt_intText, if_pos ⟨rfl, hn⟩]

theorem literal_float (x : Float) : literal x.text = some (.float x) := by
  have hword (t : List Char) (ht : isFloat t = false) : x.text ≠ t := fun he => by
    have hok := x.ok
    rw [he, ht] at hok
    cases hok
  unfold literal
  rw [if_neg (hword _ (by decide)), if_neg (hword _ (by decide)), if_neg (hword _ (by decide)),
    if_neg fun h => (hword _ (isFloat_intText _)).symm h.1, dif_pos x.ok]

/-! ### The characters of a text -/

/-- Neither a control character nor outside of ASCII. -/
def Printable (c : Char) : Prop := 32 ≤ c.toNat ∧ c.toNat ≤ 126

/-- A character of a literal other than a string. -/
def Plain (c : Char) : Prop := Printable c ∧ isEnd c = false ∧ c ≠ '"'

instance : DecidablePred Printable := fun c =>
  inferInstanceAs (Decidable (32 ≤ c.toNat ∧ c.toNat ≤ 126))

instance : DecidablePred Plain := fun c =>
  inferInstanceAs (Decidable (Printable c ∧ isEnd c = false ∧ c ≠ '"'))

/-- A property of the characters of a short text, checked one by one. -/
theorem forall_mem_of_all {P : Char → Prop} [DecidablePred P] {text : List Char}
    (h : (text.all fun c => decide (P c)) = true) : ∀ c ∈ text, P c :=
  fun c hc => of_decide_eq_true (List.all_eq_true.mp h c hc)

theorem plain_of_isDigit {c : Char} (h : c.isDigit = true) : Plain c := by
  have hrange : 48 ≤ c.toNat ∧ c.toNat ≤ 57 := Char.isDigit_iff_toNat.mp h
  have hne (d : Char) (hd : d.toNat < 48 ∨ 57 < d.toNat) : c ≠ d := fun he => by
    rw [he] at hrange
    omega
  refine ⟨⟨by omega, by omega⟩, ?_, hne '"' (by decide)⟩
  simp [isEnd, hne ',' (by decide), hne '}' (by decide)]

theorem plain_of_isNumberChar {c : Char} (h : isNumberChar c = true) : Plain c := by
  rcases Bool.or_eq_true_iff.mp h with h | h
  · exact plain_of_isDigit h
  · have hall : ∀ d ∈ "+-.eE".toList, Plain d := forall_mem_of_all (by decide)
    exact hall c (by simpa using h)

theorem plain_of_isFloat {t : List Char} (h : isFloat t = true) : ∀ c ∈ t, Plain c := by
  simp only [isFloat, Bool.or_eq_true, Bool.and_eq_true, beq_iff_eq, List.all_eq_true] at h
  rcases h with ((rfl | rfl) | rfl) | ⟨hall, -⟩
  · exact forall_mem_of_all (by decide)
  · exact forall_mem_of_all (by decide)
  · exact forall_mem_of_all (by decide)
  · exact fun c hc => plain_of_isNumberChar (hall c hc)

theorem plain_intText (n : Int) : ∀ c ∈ intText n, Plain c := by
  obtain ⟨ds, -, hds, htext | htext⟩ := intText_body n <;> rw [htext] <;> intro c hc
  · exact plain_of_isDigit (hds c hc)
  · rcases List.mem_cons.mp hc with rfl | hc
    · decide
    · exact plain_of_isDigit (hds c hc)

/-- A scalar that is no string is written with plain characters. -/
theorem plain_text {v : Scalar} (h : ∀ s, v ≠ .str s) : ∀ c ∈ v.text, Plain c := by
  cases v with
  | null => exact forall_mem_of_all (by decide)
  | bool b => cases b <;> exact forall_mem_of_all (by decide)
  | int n => exact plain_intText n
  | float x => exact plain_of_isFloat x.ok
  | str s => exact absurd rfl (h s)

theorem printable_escapeUnit {u : Nat} : ∀ c ∈ escapeUnit u, Printable c := by
  have hdigit : ∀ n < 16, Printable (Nat.digitChar n) := by decide
  have hlt (n : Nat) : n % 16 < 16 := Nat.mod_lt n (by decide)
  simp only [escapeUnit, List.forall_mem_cons]
  exact ⟨by decide, by decide, hdigit _ (hlt _), hdigit _ (hlt _), hdigit _ (hlt _),
    hdigit _ (hlt _), fun _ hc => absurd hc List.not_mem_nil⟩

theorem printable_escape (c : Nat) : ∀ x ∈ escape c, Printable x := by
  unfold escape
  split
  · exact forall_mem_of_all (by decide)
  split
  · exact forall_mem_of_all (by decide)
  split
  · exact forall_mem_of_all (by decide)
  split
  · exact forall_mem_of_all (by decide)
  split
  · exact forall_mem_of_all (by decide)
  split
  · exact forall_mem_of_all (by decide)
  split
  · exact forall_mem_of_all (by decide)
  split
  · rename_i hc
    obtain ⟨hlow, hhigh⟩ := hc
    intro x hx
    rw [List.mem_singleton.mp hx]
    interval_cases c <;> decide
  · intro x hx
    obtain ⟨u, -, hx⟩ := List.mem_flatMap.mp hx
    exact printable_escapeUnit x hx

theorem printable_stringText (s : Str) : ∀ x ∈ stringText s, Printable x := by
  intro x hx
  rcases List.mem_append.mp hx with hx | hx
  · rcases List.mem_cons.mp hx with rfl | hx
    · decide
    · obtain ⟨c, -, hx⟩ := List.mem_flatMap.mp hx
      exact printable_escape c x hx
  · rw [List.mem_singleton.mp hx]
    decide

theorem printable_text (v : Scalar) : ∀ x ∈ v.text, Printable x := by
  by_cases h : ∃ s, v = .str s
  · obtain ⟨s, rfl⟩ := h
    exact printable_stringText s
  · exact fun x hx => (plain_text (not_exists.mp h) x hx).1

/-! ### Reading a scalar -/

theorem literal_text {v : Scalar} (hv : v.Valid) (h : ∀ s, v ≠ .str s) :
    literal v.text = some v := by
  cases v with
  | null => rfl
  | bool b => cases b <;> rfl
  | int n => exact literal_int hv
  | float x => exact literal_float x
  | str s => exact absurd rfl (h s)

theorem text_ne_nil {v : Scalar} : v.text ≠ [] := by
  cases v with
  | null => nofun
  | bool b => cases b <;> nofun
  | int n =>
    obtain ⟨ds, hne, -, htext | htext⟩ := intText_body n
    · exact fun he => hne (htext.symm.trans he)
    · exact fun he => by cases htext.symm.trans he
  | float x =>
    intro he
    have hok := x.ok
    rw [show x.text = [] from he] at hok
    revert hok
    decide
  | str s => nofun

/-- A scalar that is no string does not begin like one. -/
theorem head?_text_ne {v : Scalar} {tail : List Char} (h : ∀ c ∈ v.text, c ≠ '"') :
    (v.text ++ tail).head? ≠ some '"' := by
  obtain ⟨c, cs, htext⟩ := List.exists_cons_of_ne_nil (text_ne_nil (v := v))
  rw [htext, List.cons_append, List.head?_cons]
  exact fun he => h c (by rw [htext]; exact .head _) (Option.some.inj he)

theorem join_of_ne_str {v : Scalar} (h : ∀ s, v ≠ .str s) : v.join = v := by
  cases v with
  | str s => exact absurd rfl (h s)
  | _ => rfl

/-- A word is split off where its characters stop. -/
theorem span_append {p : Char → Bool} {word tail : List Char} (hword : ∀ c ∈ word, p c = true)
    (htail : tail.head?.all (fun c => !p c) = true) :
    (word ++ tail).takeWhile p = word ∧ (word ++ tail).dropWhile p = tail := by
  rw [List.takeWhile_append_of_pos hword, List.dropWhile_append_of_pos hword]
  cases tail with
  | nil => exact ⟨List.append_nil word, rfl⟩
  | cons c tail =>
    have hc : p c = false := by simpa using htail
    simp [hc]

/-- **Reading a scalar**, when the text ends or goes on behind it. -/
theorem scanScalar_text {v : Scalar} (hv : v.Valid) {tail : List Char}
    (htail : tail.head?.all isEnd = true) :
    scanScalar (v.text ++ tail) = some (v.join, tail) := by
  by_cases hstr : ∃ s, v = .str s
  · obtain ⟨s, rfl⟩ := hstr
    have hread : scanString (Scalar.text (.str s) ++ tail) = some (join s, tail) :=
      scanString_stringText hv
    have hhead : (Scalar.text (.str s) ++ tail).head? = some '"' := rfl
    unfold scanScalar
    rw [if_pos hhead, hread]
    rfl
  · have hplain := plain_text (not_exists.mp hstr)
    obtain ⟨htake, hdrop⟩ : (v.text ++ tail).takeWhile (fun c => !isEnd c) = v.text ∧
        (v.text ++ tail).dropWhile (fun c => !isEnd c) = tail :=
      span_append (fun c hc => by simp [(hplain c hc).2.1]) (by simpa using htail)
    unfold scanScalar
    rw [if_neg (head?_text_ne fun c hc => (hplain c hc).2.2), htake, hdrop,
      literal_text hv (not_exists.mp hstr), join_of_ne_str (not_exists.mp hstr)]
    rfl

/-! ## Objects -/

/-- A flat object, in the order of its keys. -/
abbrev Object := List (Str × Scalar)

/-- The text of one entry. -/
def pairText (e : Str × Scalar) : List Char := stringText e.1 ++ ':' :: ' ' :: e.2.text

/-- The text between the braces. -/
def pairsText : Object → List Char
  | [] => []
  | [e] => pairText e
  | e :: es => pairText e ++ ',' :: ' ' :: pairsText es

/-- The text of an object. -/
def objectText (o : Object) : List Char := '{' :: pairsText o ++ ['}']

/-- An entry at the head of a text. -/
def scanPair (text : List Char) : Option ((Str × Scalar) × List Char) := do
  let (key, rest) ← scanString text
  match rest with
  | ':' :: ' ' :: rest =>
    let (value, rest) ← scanScalar rest
    return ((key, value), rest)
  | _ => none

/-- The pairs up to the closing brace, which ends the text; at most as many as the fuel. -/
def scanPairs : Nat → List Char → Option Object
  | 0, _ => none
  | fuel + 1, text => do
    let (e, rest) ← scanPair text
    match rest with
    | ['}'] => return [e]
    | ',' :: ' ' :: rest => return e :: (← scanPairs fuel rest)
    | _ => none

/-- A nonempty flat object in the form of `objectText`, without a repeated key. -/
def scanObject : List Char → Option Object
  | '{' :: text => do
    let o ← scanPairs text.length text
    if (o.map Prod.fst).Nodup then some o else none
  | _ => none

/-- What a pair is after writing and reading. -/
def joinPair (e : Str × Scalar) : Str × Scalar := (join e.1, e.2.join)

/-- The strings of an object are lists of code points, and its integers are short. -/
def Object.Valid (o : Object) : Prop := ∀ e ∈ o, Json.Valid e.1 ∧ e.2.Valid

instance : DecidablePred Object.Valid := fun o => by
  unfold Object.Valid Json.Valid
  infer_instance

theorem scanPair_pairText {e : Str × Scalar} (hv : Json.Valid e.1 ∧ e.2.Valid) {tail : List Char}
    (htail : tail.head?.all isEnd = true) :
    scanPair (pairText e ++ tail) = some (joinPair e, tail) := by
  unfold scanPair pairText
  rw [List.append_assoc, scanString_stringText hv.1]
  simp only [Option.bind_eq_bind, Option.bind_some, List.cons_append]
  rw [scanScalar_text hv.2 htail]
  rfl

theorem scanPairs_pairsText {o : Object} (hne : o ≠ []) (hv : o.Valid) {fuel : Nat}
    (hfuel : o.length ≤ fuel) : scanPairs fuel (pairsText o ++ ['}']) = some (o.map joinPair) := by
  induction o generalizing fuel with
  | nil => exact absurd rfl hne
  | cons e o ih =>
    obtain ⟨fuel, rfl⟩ := Nat.exists_eq_succ_of_ne_zero (Nat.pos_iff_ne_zero.mp
      (Nat.lt_of_lt_of_le (Nat.succ_pos _) hfuel))
    obtain ⟨he, ho⟩ := List.forall_mem_cons.mp hv
    cases o with
    | nil =>
      unfold scanPairs pairsText
      rw [scanPair_pairText he rfl]
      rfl
    | cons e' o =>
      have hrest := ih (List.cons_ne_nil _ _) ho (Nat.le_of_succ_le_succ hfuel)
      unfold scanPairs
      rw [pairsText, List.append_assoc, scanPair_pairText he rfl]
      simp only [Option.bind_eq_bind, Option.bind_some, List.cons_append]
      rw [hrest]
      · rfl
      · exact List.cons_ne_nil _ _

theorem length_le_pairsText (o : Object) : o.length ≤ (pairsText o).length := by
  induction o with
  | nil => exact Nat.zero_le _
  | cons e o ih =>
    have hpair : 1 ≤ (pairText e).length := by simp [pairText, stringText]
    cases o with
    | nil => exact hpair
    | cons e' o =>
      rw [pairsText]
      · simp only [List.length_append, List.length_cons] at ih ⊢
        omega
      · exact List.cons_ne_nil _ _

/-- **Reading inverts writing**, but for the pairs of surrogates inside strings. -/
theorem scanObject_objectText {o : Object} (hne : o ≠ []) (hv : o.Valid)
    (hkeys : (o.map fun e => join e.1).Nodup) :
    scanObject (objectText o) = some (o.map joinPair) := by
  have hfuel : o.length ≤ (pairsText o ++ ['}']).length := by
    rw [List.length_append]
    exact (length_le_pairsText o).trans (Nat.le_add_right _ _)
  have hnodup : ((o.map joinPair).map Prod.fst).Nodup := by
    rw [List.map_map]
    exact hkeys
  unfold objectText scanObject
  rw [List.cons_append]
  simp only [scanPairs_pairsText hne hv hfuel, Option.bind_eq_bind, Option.bind_some, if_pos hnodup]

theorem printable_pairText (e : Str × Scalar) : ∀ x ∈ pairText e, Printable x := by
  intro x hx
  rcases List.mem_append.mp hx with hx | hx
  · exact printable_stringText _ x hx
  · rcases List.mem_cons.mp hx with rfl | hx
    · decide
    · rcases List.mem_cons.mp hx with rfl | hx
      · decide
      · exact printable_text _ x hx

/-- **A text has no control character.** -/
theorem objectText_printable (o : Object) : ∀ x ∈ objectText o, Printable x := by
  have hpairs : ∀ x ∈ pairsText o, Printable x := by
    induction o with
    | nil => exact fun _ hx => absurd hx List.not_mem_nil
    | cons e o ih =>
      cases o with
      | nil => exact printable_pairText e
      | cons e' o =>
        intro x hx
        rcases List.mem_append.mp hx with hx | hx
        · exact printable_pairText e x hx
        · rcases List.mem_cons.mp hx with rfl | hx
          · decide
          · rcases List.mem_cons.mp hx with rfl | hx
            · decide
            · exact ih x hx
  intro x hx
  rcases List.mem_append.mp hx with hx | hx
  · rcases List.mem_cons.mp hx with rfl | hx
    · decide
    · exact hpairs x hx
  · rw [List.mem_singleton.mp hx]
    decide

example : scanString (stringText [0x6F, 0x1F600, 0xD83D, 0x0A]) =
    some ([0x6F, 0x1F600, 0xD83D, 0x0A], []) := by decide

end LclFastapi.Lib.Json
