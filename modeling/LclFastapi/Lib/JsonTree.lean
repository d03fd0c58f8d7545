import LclFastapi.Lib.Json

/-!
# JSON text of nested values

The ASCII form that a JSON encoder with sorted keys gives a value, with `", "` and `": "` as
separators, and a reader of it. The entries of an object are kept in the order of their keys, so
that two objects with the same entries are the same value.

* `Tree.all` asks something of every scalar of a value and of the keys of every object of it.
* `Tree.join` is what a value becomes by writing and reading: adjacent surrogates are joined, in
  strings and in keys. Keys that become equal are one key then, with the value of the last.
* **`loads_text`**: reading inverts writing, up to `Tree.join`. `join_eq_self`: a value that holds
  no pair of surrogates is kept.
-/

namespace LclFastapi.Lib.Json

/-! ## Values -/

mutual

/-- A JSON value. -/
inductive Tree where
  | scalar (v : Scalar)
  | array (vs : Trees)
  | object (fs : Fields)

/-- The elements of an array. -/
inductive Trees where
  | nil
  | cons (v : Tree) (vs : Trees)

/-- The entries of an object. -/
inductive Fields where
  | nil
  | cons (key : Str) (v : Tree) (fs : Fields)

end

/-- The keys, in their order. -/
def Fields.keys : Fields → List Str
  | .nil => []
  | .cons key _ fs => key :: fs.keys

/-- The first value under a key. -/
def Fields.get? (key : Str) : Fields → Option Tree
  | .nil => none
  | .cons k v fs => if k = key then some v else fs.get? key

/-- Without the first entry of a key. -/
def Fields.erase (key : Str) : Fields → Fields
  | .nil => .nil
  | .cons k v fs => if k = key then fs else .cons k v (fs.erase key)

/-- An entry before the others: a later entry with its key keeps its value and loses its place. -/
def Fields.front (key : Str) (v : Tree) (fs : Fields) : Fields :=
  match fs.get? key with
  | some v' => .cons key v' (fs.erase key)
  | none => .cons key v fs

mutual

/-- Every scalar meets `p`, and the keys of every object meet `q`. -/
def Tree.all (p : Scalar → Bool) (q : List Str → Bool) : Tree → Bool
  | .scalar v => p v
  | .array vs => vs.all p q
  | .object fs => q fs.keys && fs.all p q

/-- `Tree.all` of every element. -/
def Trees.all (p : Scalar → Bool) (q : List Str → Bool) : Trees → Bool
  | .nil => true
  | .cons v vs => v.all p q && vs.all p q

/-- `Tree.all` of every value. -/
def Fields.all (p : Scalar → Bool) (q : List Str → Bool) : Fields → Bool
  | .nil => true
  | .cons _ v fs => v.all p q && fs.all p q

end

mutual

/-- What a value is after writing and reading. -/
def Tree.join : Tree → Tree
  | .scalar v => .scalar v.join
  | .array vs => .array vs.join
  | .object fs => .object fs.join

/-- `Tree.join` of every element. -/
def Trees.join : Trees → Trees
  | .nil => .nil
  | .cons v vs => .cons v.join vs.join

/-- `Tree.join` of the entries; of equal keys the last one stays. -/
def Fields.join : Fields → Fields
  | .nil => .nil
  | .cons key v fs => fs.join.front (Json.join key) v.join

end

variable {p p' : Scalar → Bool} {q q' : List Str → Bool}

mutual

theorem Tree.all_and :
    ∀ t : Tree, t.all p q = true → t.all p' q' = true →
      t.all (fun v => p v && p' v) (fun keys => q keys && q' keys) = true
  | .scalar v, h, h' => by
    rw [Tree.all] at h h' ⊢
    rw [h, h']
    rfl
  | .array vs, h, h' => Trees.all_and vs h h'
  | .object fs, h, h' => by
    obtain ⟨hkeys, hfs⟩ := Bool.and_eq_true_iff.mp h
    obtain ⟨hkeys', hfs'⟩ := Bool.and_eq_true_iff.mp h'
    rw [Tree.all, hkeys, hkeys', Fields.all_and fs hfs hfs']
    rfl

theorem Trees.all_and :
    ∀ vs : Trees, vs.all p q = true → vs.all p' q' = true →
      vs.all (fun v => p v && p' v) (fun keys => q keys && q' keys) = true
  | .nil, _, _ => rfl
  | .cons v vs, h, h' => by
    obtain ⟨hv, hvs⟩ := Bool.and_eq_true_iff.mp h
    obtain ⟨hv', hvs'⟩ := Bool.and_eq_true_iff.mp h'
    rw [Trees.all, Tree.all_and v hv hv', Trees.all_and vs hvs hvs']
    rfl

theorem Fields.all_and :
    ∀ fs : Fields, fs.all p q = true → fs.all p' q' = true →
      fs.all (fun v => p v && p' v) (fun keys => q keys && q' keys) = true
  | .nil, _, _ => rfl
  | .cons _ v fs, h, h' => by
    obtain ⟨hv, hfs⟩ := Bool.and_eq_true_iff.mp h
    obtain ⟨hv', hfs'⟩ := Bool.and_eq_true_iff.mp h'
    rw [Fields.all, Tree.all_and v hv hv', Fields.all_and fs hfs hfs']
    rfl

end

/-! ## Conditions -/

instance : DecidablePred Json.Valid := fun s =>
  inferInstanceAs (Decidable (∀ c ∈ s, c < 0x110000))

/-- No high surrogate is directly before a low one. -/
def unpaired (s : Str) : Bool := decide (s.IsChain fun c d => (isHigh c && isLow d) = false)

/-- Neither NaN nor infinite. -/
def Float.finite (x : Float) : Bool :=
  x.text != "NaN".toList && x.text != "Infinity".toList && x.text != "-Infinity".toList

/-- The scalar can be written. -/
def Scalar.sound : Scalar → Bool
  | .float x => x.finite
  | .str s => decide (Json.Valid s)
  | _ => true

/-- Its text is not too long to be read. -/
def Scalar.short : Scalar → Bool
  | .int n => Json.short n
  | _ => true

/-- No two surrogates of it are a pair. -/
def Scalar.unpaired : Scalar → Bool
  | .str s => Json.unpaired s
  | _ => true

/-- Strings are lists of code points, numbers are finite, and entries are in the order of their
keys. -/
def Tree.sound : Tree → Bool :=
  Tree.all Scalar.sound fun keys =>
    keys.all (fun key => decide (Json.Valid key)) && decide (keys.Pairwise (· < ·))

/-- Every integer is converted to and from text. -/
def Tree.short : Tree → Bool := Tree.all Scalar.short fun _ => true

/-- No string and no key holds a pair of surrogates. -/
def Tree.unpaired : Tree → Bool := Tree.all Scalar.unpaired fun keys => keys.all Json.unpaired

/-! ## Writing and reading -/

mutual

/-- The text of a tree. -/
def Tree.text : Tree → List Char
  | .scalar v => v.text
  | .array vs => '[' :: vs.text
  | .object fs => '{' :: fs.text

/-- The elements and the closing bracket. -/
def Trees.text : Trees → List Char
  | .nil => [']']
  | .cons v .nil => v.text ++ [']']
  | .cons v (.cons v' vs) => v.text ++ ',' :: ' ' :: Trees.text (.cons v' vs)

/-- The entries and the closing brace. -/
def Fields.text : Fields → List Char
  | .nil => ['}']
  | .cons key v .nil => stringText key ++ ':' :: ' ' :: (v.text ++ ['}'])
  | .cons key v (.cons key' v' fs) =>
    stringText key ++ ':' :: ' ' :: (v.text ++ ',' :: ' ' :: Fields.text (.cons key' v' fs))

end

/-- A value as text; an integer that is too long for the conversion is an error. -/
def dumps (v : Tree) : Option (List Char) := if v.short then some v.text else none

/-- A character of a scalar other than a string. -/
def isAtom (c : Char) : Bool := c.isAlphanum || c == '+' || c == '-' || c == '.'

/-- A scalar at the head of a text. -/
def scanAtom (text : List Char) : Option (Scalar × List Char) :=
  if text.head? = some '"' then (scanString text).map fun p => (.str p.1, p.2)
  else (literal (text.takeWhile isAtom)).map fun v => (v, text.dropWhile isAtom)

mutual

/-- A value at the start of a text, and what follows it. -/
def scan : Nat → List Char → Option (Tree × List Char)
  | 0, _ => none
  | fuel + 1, text =>
    if text.head? = some '[' then
      if text.tail.head? = some ']' then some (.array .nil, text.tail.tail)
      else (scanItems fuel text.tail).map fun p => (.array p.1, p.2)
    else if text.head? = some '{' then
      if text.tail.head? = some '}' then some (.object .nil, text.tail.tail)
      else (scanFields fuel text.tail).map fun p => (.object p.1, p.2)
    else (scanAtom text).map fun p => (.scalar p.1, p.2)

/-- One element or more up to the closing bracket. -/
def scanItems : Nat → List Char → Option (Trees × List Char)
  | 0, _ => none
  | fuel + 1, text => do
    let (v, rest) ← scan fuel text
    match rest with
    | ']' :: rest => return (.cons v .nil, rest)
    | ',' :: ' ' :: rest =>
      let (vs, rest) ← scanItems fuel rest
      return (.cons v vs, rest)
    | _ => none

/-- One entry or more up to the closing brace. -/
def scanFields : Nat → List Char → Option (Fields × List Char)
  | 0, _ => none
  | fuel + 1, text => do
    let (key, rest) ← scanString text
    match rest with
    | ':' :: ' ' :: rest =>
      let (v, rest) ← scan fuel rest
      match rest with
      | '}' :: rest => return (.cons key v .nil, rest)
      | ',' :: ' ' :: rest =>
        let (fs, rest) ← scanFields fuel rest
        return (fs.front key v, rest)
      | _ => none
    | _ => none

end

/-- The value of a text in the form of `Tree.text`. -/
def loads (text : List Char) : Option Tree := do
  let (v, rest) ← scan text.length text
  if rest = [] then some v else none

/-! ## Reading what was written -/

theorem atom_of_isNumberChar {c : Char} (h : isNumberChar c = true) : isAtom c = true := by
  rcases Bool.or_eq_true_iff.mp h with h | h
  · simp [isAtom, Char.isAlphanum, h]
  · have hall : ∀ d ∈ "+-.eE".toList, isAtom d = true := forall_mem_of_all (by decide)
    exact hall c (by simpa using h)

/-- A scalar that is no string is written with the characters of atoms. -/
theorem atom_text {v : Scalar} (h : ∀ s, v ≠ .str s) : ∀ c ∈ v.text, isAtom c = true := by
  have hdigit (c : Char) (hc : c.isDigit = true) : isAtom c = true := by
    simp [isAtom, Char.isAlphanum, hc]
  cases v with
  | null => exact forall_mem_of_all (by decide)
  | bool b => cases b <;> exact forall_mem_of_all (by decide)
  | int n =>
    show ∀ c ∈ intText n, isAtom c = true
    obtain ⟨ds, -, hds, htext | htext⟩ := intText_body n <;> rw [htext] <;> intro c hc
    · exact hdigit c (hds c hc)
    · rcases List.mem_cons.mp hc with rfl | hc
      · decide
      · exact hdigit c (hds c hc)
  | float x =>
    show ∀ c ∈ x.text, isAtom c = true
    have hok := x.ok
    simp only [isFloat, Bool.or_eq_true, Bool.and_eq_true, beq_iff_eq, List.all_eq_true] at hok
    rcases hok with ((htext | htext) | htext) | ⟨hall, -⟩
    · rw [htext]
      exact forall_mem_of_all (by decide)
    · rw [htext]
      exact forall_mem_of_all (by decide)
    · rw [htext]
      exact forall_mem_of_all (by decide)
    · exact fun c hc => atom_of_isNumberChar (hall c hc)
  | str s => exact absurd rfl (h s)

/-- What follows an atom: the end, or a character that is none of its own. -/
def Ends (tail : List Char) : Prop := tail.head?.all (fun c => !isAtom c) = true

variable {tail : List Char}

theorem scanAtom_text {v : Scalar} (hv : v.Valid) (htail : Ends tail) :
    scanAtom (v.text ++ tail) = some (v.join, tail) := by
  by_cases hstr : ∃ s, v = .str s
  · obtain ⟨s, rfl⟩ := hstr
    have hread : scanString (Scalar.text (.str s) ++ tail) = some (join s, tail) :=
      scanString_stringText hv
    have hhead : (Scalar.text (.str s) ++ tail).head? = some '"' := rfl
    unfold scanAtom
    rw [if_pos hhead, hread]
    rfl
  · have hatom := atom_text (not_exists.mp hstr)
    have hquote : isAtom '"' = false := by decide
    have hne : ∀ c ∈ v.text, c ≠ '"' := by
      rintro c hc rfl
      exact Bool.false_ne_true (hquote.symm.trans (hatom _ hc))
    obtain ⟨htake, hdrop⟩ := span_append hatom htail
    unfold scanAtom
    rw [if_neg (head?_text_ne hne), htake, hdrop, literal_text hv (not_exists.mp hstr),
      join_of_ne_str (not_exists.mp hstr)]
    rfl

/-- The first character of a scalar is no bracket. -/
theorem scalar_head (v : Scalar) : ∃ c cs, v.text = c :: cs ∧ c ≠ '[' ∧ c ≠ '{' ∧ c ≠ ']' := by
  by_cases hstr : ∃ s, v = .str s
  · obtain ⟨s, rfl⟩ := hstr
    exact ⟨'"', _, rfl, by decide⟩
  · obtain ⟨c, cs, htext⟩ := List.exists_cons_of_ne_nil (text_ne_nil (v := v))
    have hc := atom_text (not_exists.mp hstr) c (by rw [htext]; exact .head _)
    have hne (d : Char) (hd : isAtom d = false) : c ≠ d := fun he => by
      rw [he, hd] at hc
      cases hc
    exact ⟨c, cs, htext, hne '[' (by decide), hne '{' (by decide), hne ']' (by decide)⟩

theorem Tree.text_head (t : Tree) : ∃ c cs, t.text = c :: cs ∧ c ≠ ']' := by
  cases t with
  | scalar v =>
    obtain ⟨c, cs, htext, -, -, hc⟩ := scalar_head v
    exact ⟨c, cs, htext, hc⟩
  | array vs => exact ⟨'[', _, rfl, by decide⟩
  | object fs => exact ⟨'{', _, rfl, by decide⟩

theorem Tree.text_pos (t : Tree) : 0 < t.text.length := by
  obtain ⟨c, cs, htext, -⟩ := t.text_head
  simp [htext]

/-- What reading asks of the scalars and the keys of a value. -/
structure Readable (p : Scalar → Bool) (q : List Str → Bool) : Prop where
  scalar : ∀ v, p v = true → v.Valid
  keys : ∀ keys, q keys = true → ∀ key ∈ keys, Json.Valid key

mutual

/-- **Reading a value**, when the text ends or goes on behind it. -/
theorem scan_text (hr : Readable p q) :
    ∀ (t : Tree) {fuel : Nat} {tail : List Char}, t.all p q = true → t.text.length ≤ fuel →
      Ends tail → scan fuel (t.text ++ tail) = some (t.join, tail)
  | t, 0, _, _, hfuel, _ => absurd t.text_pos (Nat.not_lt.mpr hfuel)
  | .scalar v, fuel + 1, tail, hv, _, htail => by
    have hatom := scanAtom_text (hr.scalar v hv) htail
    have hhead : (v.text ++ tail).head? ≠ some '[' ∧ (v.text ++ tail).head? ≠ some '{' := by
      obtain ⟨c, cs, htext, hbracket, hbrace, -⟩ := scalar_head v
      simp [htext, hbracket, hbrace]
    simp only [scan, Tree.text, if_neg hhead.1, if_neg hhead.2, hatom]
    rfl
  | .array .nil, fuel + 1, tail, hv, hfuel, htail => rfl
  | .array (.cons v vs), fuel + 1, tail, hv, hfuel, htail => by
    have hrest : scanItems fuel ((Trees.cons v vs).text ++ tail) =
        some ((Trees.cons v vs).join, tail) :=
      scanItems_text hr (.cons v vs) nofun hv (Nat.le_of_succ_le_succ hfuel)
    have hhead : ((Trees.cons v vs).text ++ tail).head? ≠ some ']' := by
      obtain ⟨c, cs, htext, hc⟩ := v.text_head
      cases vs <;> simp [Trees.text, htext, hc]
    simp only [scan, Tree.text, List.cons_append, List.head?_cons, List.tail_cons, if_neg hhead,
      hrest]
    rfl
  | .object .nil, fuel + 1, tail, hv, hfuel, htail => rfl
  | .object (.cons key v fs), fuel + 1, tail, hv, hfuel, htail => by
    obtain ⟨hkeys, hfs⟩ := Bool.and_eq_true_iff.mp hv
    have hrest : scanFields fuel ((Fields.cons key v fs).text ++ tail) =
        some ((Fields.cons key v fs).join, tail) :=
      scanFields_text hr (.cons key v fs) nofun (hr.keys _ hkeys) hfs
        (Nat.le_of_succ_le_succ hfuel)
    have hhead : ((Fields.cons key v fs).text ++ tail).head? ≠ some '}' := by
      cases fs <;> simp [Fields.text, stringText]
    simp only [scan, Tree.text, List.cons_append, List.head?_cons, List.tail_cons, if_neg hhead,
      hrest]
    rfl

theorem scanItems_text (hr : Readable p q) :
    ∀ (vs : Trees) {fuel : Nat} {tail : List Char}, vs ≠ .nil → vs.all p q = true →
      vs.text.length ≤ fuel → scanItems fuel (vs.text ++ tail) = some (vs.join, tail)
  | .nil, _, _, hne, _, _ => absurd rfl hne
  | .cons v .nil, fuel, tail, _, hv, hfuel => by
    have hlength : v.text.length + 1 ≤ fuel := by simpa [Trees.text] using hfuel
    obtain ⟨fuel, rfl⟩ := Nat.exists_eq_add_of_le' (Nat.le_of_add_left_le hlength)
    have hread : scan fuel (v.text ++ ']' :: tail) = some (v.join, ']' :: tail) :=
      scan_text hr v (Bool.and_eq_true_iff.mp hv).1 (Nat.le_of_succ_le_succ hlength) rfl
    simp only [scanItems, Trees.text, List.append_assoc, List.cons_append, List.nil_append, hread]
    rfl
  | .cons v (.cons v' vs), fuel, tail, _, hv, hfuel => by
    obtain ⟨hv, hvs⟩ := Bool.and_eq_true_iff.mp hv
    have hlength : v.text.length + ((Trees.cons v' vs).text.length + 1 + 1) ≤ fuel := by
      simpa [Trees.text] using hfuel
    obtain ⟨fuel, rfl⟩ : ∃ n, fuel = n + 1 := Nat.exists_eq_add_of_le' (by omega)
    have hread : scan fuel (v.text ++ ',' :: ' ' :: ((Trees.cons v' vs).text ++ tail)) =
        some (v.join, ',' :: ' ' :: ((Trees.cons v' vs).text ++ tail)) :=
      scan_text hr v hv (by omega) rfl
    have hrest : scanItems fuel ((Trees.cons v' vs).text ++ tail) =
        some ((Trees.cons v' vs).join, tail) :=
      scanItems_text hr (.cons v' vs) nofun hvs (by omega)
    simp only [scanItems, Trees.text, List.append_assoc, List.cons_append, hread,
      Option.bind_eq_bind, Option.bind_some, hrest]
    rfl

theorem scanFields_text (hr : Readable p q) :
    ∀ (fs : Fields) {fuel : Nat} {tail : List Char}, fs ≠ .nil →
      (∀ key ∈ fs.keys, Json.Valid key) → fs.all p q = true → fs.text.length ≤ fuel →
      scanFields fuel (fs.text ++ tail) = some (fs.join, tail)
  | .nil, _, _, hne, _, _, _ => absurd rfl hne
  | .cons key v .nil, fuel, tail, _, hk, hv, hfuel => by
    have hlength : (stringText key).length + (v.text.length + 1 + 1 + 1) ≤ fuel := by
      simpa [Fields.text] using hfuel
    obtain ⟨fuel, rfl⟩ : ∃ n, fuel = n + 1 := Nat.exists_eq_add_of_le' (by omega)
    have hname : scanString (stringText key ++ ':' :: ' ' :: (v.text ++ '}' :: tail)) =
        some (Json.join key, ':' :: ' ' :: (v.text ++ '}' :: tail)) :=
      scanString_stringText (hk key (.head _))
    have hread : scan fuel (v.text ++ '}' :: tail) = some (v.join, '}' :: tail) :=
      scan_text hr v (Bool.and_eq_true_iff.mp hv).1 (by omega) rfl
    simp only [scanFields, Fields.text, List.append_assoc, List.cons_append, List.nil_append, hname,
      Option.bind_eq_bind, Option.bind_some, hread]
    rfl
  | .cons key v (.cons key' v' fs), fuel, tail, _, hk, hv, hfuel => by
    obtain ⟨hv, hfs⟩ := Bool.and_eq_true_iff.mp hv
    obtain ⟨hkey, hkeys⟩ := List.forall_mem_cons.mp hk
    have hlength : (stringText key).length +
        (v.text.length + ((Fields.cons key' v' fs).text.length + 1 + 1) + 1 + 1) ≤ fuel := by
      simpa [Fields.text] using hfuel
    obtain ⟨fuel, rfl⟩ : ∃ n, fuel = n + 1 := Nat.exists_eq_add_of_le' (by omega)
    have hname : scanString (stringText key ++
          ':' :: ' ' :: (v.text ++ ',' :: ' ' :: ((Fields.cons key' v' fs).text ++ tail))) =
        some (Json.join key,
          ':' :: ' ' :: (v.text ++ ',' :: ' ' :: ((Fields.cons key' v' fs).text ++ tail))) :=
      scanString_stringText hkey
    have hread : scan fuel (v.text ++ ',' :: ' ' :: ((Fields.cons key' v' fs).text ++ tail)) =
        some (v.join, ',' :: ' ' :: ((Fields.cons key' v' fs).text ++ tail)) :=
      scan_text hr v hv (by omega) rfl
    have hrest : scanFields fuel ((Fields.cons key' v' fs).text ++ tail) =
        some ((Fields.cons key' v' fs).join, tail) :=
      scanFields_text hr (.cons key' v' fs) nofun hkeys hfs (by omega)
    simp only [scanFields, Fields.text, List.append_assoc, List.cons_append, hname,
      Option.bind_eq_bind, Option.bind_some, hread, hrest]
    rfl

end

/-- **Reading inverts writing**, but for the pairs of surrogates inside strings and keys. -/
theorem loads_text {t : Tree} (hsound : t.sound = true) (hshort : t.short = true) :
    loads t.text = some t.join := by
  have hr : Readable (fun v => v.sound && v.short) fun keys =>
      keys.all (fun key => decide (Json.Valid key)) && decide (keys.Pairwise (· < ·)) && true := by
    constructor
    · intro v hv
      obtain ⟨hpoints, hdigits⟩ := Bool.and_eq_true_iff.mp hv
      cases v with
      | int n => exact hdigits
      | str s => exact of_decide_eq_true hpoints
      | _ => trivial
    · intro keys hkeys key hkey
      obtain ⟨hkeys, -⟩ := Bool.and_eq_true_iff.mp hkeys
      obtain ⟨hpoints, -⟩ := Bool.and_eq_true_iff.mp hkeys
      exact of_decide_eq_true (List.all_eq_true.mp hpoints key hkey)
  have hread : scan t.text.length (t.text ++ []) = some (t.join, []) :=
    scan_text hr t (t.all_and hsound hshort) (Nat.le_refl _) rfl
  rw [List.append_nil] at hread
  rw [loads, hread]
  rfl

/-! ## What is kept -/

theorem Fields.get?_eq_none {key : Str} : ∀ {fs : Fields}, key ∉ fs.keys → fs.get? key = none
  | .nil, _ => rfl
  | .cons k v fs, h => by
    obtain ⟨hne, hrest⟩ := not_or.mp (List.mem_cons.not.mp h)
    rw [Fields.get?, if_neg (Ne.symm hne), Fields.get?_eq_none hrest]

theorem Fields.front_of_new {key : Str} {v : Tree} {fs : Fields} (h : key ∉ fs.keys) :
    fs.front key v = .cons key v fs := by
  rw [Fields.front, Fields.get?_eq_none h]

theorem join_eq_self_of_unpaired {s : Str} (h : unpaired s = true) : join s = s :=
  join_eq_self (of_decide_eq_true h)

/-- What keeps a value, asked of its scalars and keys. -/
structure Keeps (p : Scalar → Bool) (q : List Str → Bool) : Prop where
  scalar : ∀ v, p v = true → v.unpaired = true
  keys : ∀ keys, q keys = true → keys.Nodup ∧ ∀ key ∈ keys, unpaired key = true

mutual

theorem Tree.join_eq_self_of_all (hk : Keeps p q) : ∀ t : Tree, t.all p q = true → t.join = t
  | .scalar v, h => by
    have hv := hk.scalar v h
    cases v with
    | str s => rw [Tree.join, Scalar.join, join_eq_self_of_unpaired hv]
    | _ => rfl
  | .array vs, h => by rw [Tree.join, Trees.join_eq_self_of_all hk vs h]
  | .object fs, h => by
    obtain ⟨hkeys, hfs⟩ := Bool.and_eq_true_iff.mp h
    rw [Tree.join, Fields.join_eq_self_of_all hk fs (hk.keys _ hkeys) hfs]

theorem Trees.join_eq_self_of_all (hk : Keeps p q) : ∀ vs : Trees, vs.all p q = true → vs.join = vs
  | .nil, _ => rfl
  | .cons v vs, h => by
    obtain ⟨hv, hvs⟩ := Bool.and_eq_true_iff.mp h
    rw [Trees.join, Tree.join_eq_self_of_all hk v hv, Trees.join_eq_self_of_all hk vs hvs]

theorem Fields.join_eq_self_of_all (hk : Keeps p q) :
    ∀ fs : Fields, (fs.keys.Nodup ∧ ∀ key ∈ fs.keys, Json.unpaired key = true) →
      fs.all p q = true → fs.join = fs
  | .nil, _, _ => rfl
  | .cons key v fs, hkeys, h => by
    obtain ⟨hnodup, hjoin⟩ := hkeys
    obtain ⟨hnew, hnodup⟩ := List.nodup_cons.mp hnodup
    obtain ⟨hkey, hjoin⟩ := List.forall_mem_cons.mp hjoin
    obtain ⟨hv, hfs⟩ := Bool.and_eq_true_iff.mp h
    rw [Fields.join, Tree.join_eq_self_of_all hk v hv,
      Fields.join_eq_self_of_all hk fs ⟨hnodup, hjoin⟩ hfs, join_eq_self_of_unpaired hkey,
      Fields.front_of_new hnew]

end

/-- **A value without pairs of surrogates is kept.** -/
theorem Tree.join_eq_self {t : Tree} (hsound : t.sound = true) (hunpaired : t.unpaired = true) :
    t.join = t := by
  have hk : Keeps (fun v => v.sound && v.unpaired) fun keys =>
      keys.all (fun key => decide (Json.Valid key)) && decide (keys.Pairwise (· < ·)) &&
        keys.all Json.unpaired := by
    constructor
    · exact fun v hv => (Bool.and_eq_true_iff.mp hv).2
    · intro keys hkeys
      obtain ⟨hsound, hunpaired⟩ := Bool.and_eq_true_iff.mp hkeys
      obtain ⟨-, hsorted⟩ := Bool.and_eq_true_iff.mp hsound
      have hdistinct : ∀ a b : Str, a < b → a ≠ b := by
        rintro a _ hlt rfl
        exact List.lt_irrefl a hlt
      exact ⟨(of_decide_eq_true hsorted).imp (hdistinct _ _),
        fun key hkey => List.all_eq_true.mp hunpaired key hkey⟩
  exact Tree.join_eq_self_of_all hk t (t.all_and hsound hunpaired)

example : (loads (Tree.text (.array (.cons (.object .nil) (.cons (.scalar (.int (-3))) .nil))))) =
    some (.array (.cons (.object .nil) (.cons (.scalar (.int (-3))) .nil))) := by rfl

end LclFastapi.Lib.Json
