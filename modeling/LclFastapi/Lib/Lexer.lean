import Mathlib.Data.List.Basic

/-!
# Words, quotes and marks

A lexer for configuration languages over any alphabet: words between separators, single-letter
marks, and quoted words in which an escape letter protects the next one. It is a machine with one
transition a letter (`next`), so it reads a text piece by piece.

* `lex_append`: a text that ends outside quotes is read alone when a separator follows.
  `lex_lines` reads a text line by line.
* `lex_plain`, **`lex_quote`**: a plain word, and a quoted one whatever its letters, is one token.
* `undouble_double`: the other protection, where a doubled letter stands for one.
-/

namespace LclFastapi.Lib

variable {α : Type*} [DecidableEq α]

/-! ## The lexer -/

/-- The letters of a language. -/
structure Lexicon (α : Type*) where
  space : α → Bool
  /-- Letters that are tokens of their own. -/
  mark : α → Bool
  quote : α
  escape : α
  /-- What the escape letter and the next one stand for. -/
  unescape : α → List α
  /-- A quoted part may stand inside a word. -/
  joins : Bool
  /-- Letters that start a comment, which is not read. -/
  comment : α → Bool

/-- A word, or a mark that stands for itself. -/
inductive Token (α : Type*) where
  | word (w : List α)
  | mark (c : α)
  deriving DecidableEq

/-- Where the lexer is: between words, or in a word that it has read a part of. -/
inductive Mode (α : Type*) where
  | blank
  | bare (w : List α)
  | quoted (w : List α)
  /-- After the escape letter. -/
  | escaped (inQuotes : Bool) (w : List α)
  /-- After the closing quote. -/
  | closed (w : List α)
  deriving DecidableEq

namespace Lexicon

variable (σ : Lexicon α)

/-- The letter ends a word. -/
def sep (c : α) : Bool := σ.space c || σ.mark c

/-- A separator as a token. -/
def sepTokens (c : α) : List (Token α) := if σ.mark c then [.mark c] else []

/-- One letter. -/
def next : Mode α → α → Option (List (Token α) × Mode α)
  | .blank, c =>
    if σ.sep c then some (σ.sepTokens c, .blank)
    else if σ.comment c then none
    else if c = σ.quote then some ([], .quoted [])
    else if c = σ.escape then some ([], .escaped false [])
    else some ([], .bare [c])
  | .bare w, c =>
    if σ.sep c then some (.word w :: σ.sepTokens c, .blank)
    else if c = σ.quote ∧ σ.joins = true then some ([], .quoted w)
    else if c = σ.escape then some ([], .escaped false w)
    else some ([], .bare (w ++ [c]))
  | .quoted w, c =>
    if c = σ.quote then some ([], .closed w)
    else if c = σ.escape then some ([], .escaped true w)
    else some ([], .quoted (w ++ [c]))
  | .escaped inQuotes w, c =>
    some ([], if inQuotes then .quoted (w ++ σ.unescape c) else .bare (w ++ σ.unescape c))
  | .closed w, c =>
    if σ.sep c then some (.word w :: σ.sepTokens c, .blank)
    else if σ.joins = false then none
    else if c = σ.quote then some ([], .quoted w)
    else if c = σ.escape then some ([], .escaped false w)
    else some ([], .bare (w ++ [c]))

/-- The tokens of a text from a mode on, and the mode at its end. -/
def run : Mode α → List α → Option (List (Token α) × Mode α)
  | m, [] => some ([], m)
  | m, c :: cs =>
    match σ.next m c with
    | none => none
    | some (ts, m') => (run m' cs).map fun r => (ts ++ r.1, r.2)

/-- The end of the text. -/
def finish : Mode α → Option (List (Token α))
  | .blank => some []
  | .bare w | .closed w => some [.word w]
  | .quoted _ | .escaped .. => none

/-- The tokens of a whole text. -/
def lex (cs : List α) : Option (List (Token α)) :=
  (σ.run .blank cs).bind fun r => (finish r.2).map fun ts => r.1 ++ ts

/-- A value between quotes. -/
def quoted (s : List α) : List α :=
  σ.quote ::
    (s.flatMap fun c => if c = σ.escape ∨ c = σ.quote then [σ.escape, c] else [c]) ++ [σ.quote]

/-- A letter that stands for itself in a word. -/
def plain (c : α) : Bool :=
  !(σ.sep c || σ.comment c || decide (c = σ.quote) || decide (c = σ.escape))

/-! ## Texts in pieces -/

variable {σ} {m m' : Mode α} {c : α} {cs rest s w : List α} {ts : List (Token α)}

theorem run_append :
    σ.run m (cs ++ rest) =
      (σ.run m cs).bind fun r => (σ.run r.2 rest).map fun r' => (r.1 ++ r'.1, r'.2) := by
  induction cs generalizing m with
  | nil => simp [run]
  | cons c cs ih =>
    rw [List.cons_append, run, run]
    cases σ.next m c with
    | none => rfl
    | some r =>
      simp only [ih, Option.map_bind, Option.bind_map, Function.comp_def, Option.map_map,
        List.append_assoc]

/-- A separator ends the word that the lexer is in. -/
theorem next_sep (hc : σ.sep c = true) (hm : finish m = some ts) :
    σ.next m c = some (ts ++ σ.sepTokens c, .blank) := by
  cases m with
  | blank =>
    cases hm
    exact if_pos hc
  | bare w =>
    cases hm
    exact if_pos hc
  | closed w =>
    cases hm
    exact if_pos hc
  | quoted w => cases hm
  | escaped inQuotes w => cases hm

/-- **A text is read alone** when a separator follows it. -/
theorem lex_append (h : σ.lex cs = some ts) (hc : σ.sep c = true) :
    σ.lex (cs ++ c :: rest) = (σ.lex rest).map fun us => ts ++ σ.sepTokens c ++ us := by
  unfold lex at h ⊢
  obtain ⟨⟨us, m⟩, hrun, h⟩ := Option.bind_eq_some_iff.mp h
  obtain ⟨vs, hfinish, rfl⟩ := Option.map_eq_some_iff.mp h
  rw [run_append, hrun, Option.bind_some, run, next_sep hc hfinish]
  simp only [Option.map_map, Option.bind_map, Function.comp_def, Option.map_bind, List.append_assoc]

/-- A separator at the beginning. -/
theorem lex_cons (hc : σ.sep c = true) :
    σ.lex (c :: rest) = (σ.lex rest).map fun us => σ.sepTokens c ++ us := by
  have hnil : σ.lex [] = some [] := rfl
  exact lex_append hnil hc

theorem run_plain (hs : ∀ c, c ∈ s → σ.plain c = true) :
    σ.run (.bare w) s = some ([], .bare (w ++ s)) := by
  induction s generalizing w with
  | nil => rw [run, List.append_nil]
  | cons c s ih =>
    have hc : σ.next (.bare w) c = some ([], .bare (w ++ [c])) := by
      have hplain := hs c (.head _)
      simp only [plain, Bool.not_eq_true', Bool.or_eq_false_iff, decide_eq_false_iff_not] at hplain
      simp [next, hplain]
    rw [run, hc]
    simp only [ih fun d hd => hs d (.tail _ hd), Option.map_some, List.append_assoc,
      List.nil_append, List.singleton_append]

theorem lex_plain (hne : s ≠ []) (hs : ∀ c, c ∈ s → σ.plain c = true) :
    σ.lex s = some [.word s] := by
  cases s with
  | nil => exact absurd rfl hne
  | cons c s =>
    have hc : σ.next .blank c = some ([], .bare [c]) := by
      have hplain := hs c (.head _)
      simp only [plain, Bool.not_eq_true', Bool.or_eq_false_iff, decide_eq_false_iff_not] at hplain
      simp [next, hplain]
    unfold lex
    rw [run, hc]
    simp only [run_plain fun d hd => hs d (.tail _ hd)]
    rfl

/-- The letters of the syntax do not overlap where quoting needs it. -/
structure Lawful (σ : Lexicon α) : Prop where
  quote_sep : σ.sep σ.quote = false
  quote_comment : σ.comment σ.quote = false
  quote_escape : σ.escape ≠ σ.quote
  unescape_quote : σ.unescape σ.quote = [σ.quote]
  unescape_escape : σ.unescape σ.escape = [σ.escape]

theorem run_quoted (hσ : σ.Lawful) :
    σ.run (.quoted w)
        (s.flatMap fun c => if c = σ.escape ∨ c = σ.quote then [σ.escape, c] else [c]) =
      some ([], .quoted (w ++ s)) := by
  induction s generalizing w with
  | nil => rw [List.flatMap_nil, run, List.append_nil]
  | cons c s ih =>
    rw [List.flatMap_cons, run_append]
    by_cases hc : c = σ.escape ∨ c = σ.quote
    · have hunescape : σ.unescape c = [c] := by
        rcases hc with rfl | rfl
        · exact hσ.unescape_escape
        · exact hσ.unescape_quote
      have hprotected : σ.run (.quoted w) [σ.escape, c] = some ([], .quoted (w ++ [c])) := by
        simp [run, next, hσ.quote_escape, hunescape]
      rw [if_pos hc, hprotected]
      simp [ih]
    · have hself : σ.run (.quoted w) [c] = some ([], .quoted (w ++ [c])) := by
        simp [run, next, not_or.mp hc]
      rw [if_neg hc, hself]
      simp [ih]

/-- **A quoted value is one word**, whatever its letters. -/
theorem lex_quote (hσ : σ.Lawful) (s : List α) : σ.lex (σ.quoted s) = some [.word s] := by
  have hopen : σ.next .blank σ.quote = some ([], .quoted []) := by
    simp [next, hσ.quote_sep, hσ.quote_comment]
  unfold lex quoted
  rw [List.cons_append, run, hopen]
  simp [run_append, run_quoted hσ, run, next, finish]

/-- After a text that ends between words. -/
theorem lex_blank (h : σ.run .blank cs = some (ts, .blank)) :
    σ.lex (cs ++ rest) = (σ.lex rest).map fun us => ts ++ us := by
  unfold lex
  rw [run_append, h]
  simp only [Option.bind_some, Option.map_bind, Option.bind_map, Option.map_map,
    Function.comp_def, List.append_assoc]

/-- Quoting brings in no letters but the quote and the escape letter. -/
theorem notMem_quoted (hquote : c ≠ σ.quote) (hescape : c ≠ σ.escape) (hs : c ∉ s) :
    c ∉ σ.quoted s := by
  intro hc
  unfold quoted at hc
  simp only [List.mem_append, List.mem_cons, List.mem_flatMap, List.not_mem_nil, or_false,
    hquote, false_or] at hc
  obtain ⟨d, hd, hc⟩ := hc
  split at hc
  · simp only [List.mem_cons, List.not_mem_nil, or_false, hescape, false_or] at hc
    exact hs (hc ▸ hd)
  · exact hs (List.mem_singleton.mp hc ▸ hd)

/-- A part read alone, after a text that ends between words and before a separator. -/
theorem lex_between {tail : List α} {us vs : List (Token α)}
    (hcs : σ.run .blank cs = some (ts, .blank)) (hs : σ.lex s = some us)
    (hc : tail.head?.any σ.sep = true) (htail : σ.lex tail = some vs) :
    σ.lex (cs ++ s ++ tail) = some (ts ++ us ++ vs) := by
  cases tail with
  | nil => cases hc
  | cons c tail =>
    rw [lex_cons hc] at htail
    obtain ⟨ws, hws, rfl⟩ := Option.map_eq_some_iff.mp htail
    rw [List.append_assoc, lex_blank hcs, lex_append hs hc, hws, Option.map_some, Option.map_some]
    simp only [List.append_assoc]

/-- **A text is read line by line.** -/
theorem lex_lines {newline : α} (hc : σ.space newline = true) (hm : σ.mark newline = false)
    {lines : List (List α)} {tokens : List (List (Token α))}
    (h : List.Forall₂ (fun line ts => σ.lex line = some ts) lines tokens) :
    σ.lex ([newline].intercalate lines) = some tokens.flatten := by
  have hsep : σ.sep newline = true := by simp [sep, hc]
  have hnone : σ.sepTokens newline = [] := by simp [sepTokens, hm]
  induction h with
  | nil => rfl
  | @cons line ts lines tokens hline hlines ih =>
    cases hlines with
    | nil => simpa using hline
    | cons hnext hlines =>
      rw [List.intercalate_cons_cons, List.append_assoc, List.singleton_append,
        lex_append hline hsep, ih, hnone]
      simp

end Lexicon

/-! ## Doubled letters -/

/-- `d` is written twice. -/
def double (d : α) (s : List α) : List α := s.flatMap fun c => if c = d then [d, d] else [c]

/-- A doubled `d` stands for one; a single one has another meaning, which is not read. -/
def undouble (d : α) : List α → Option (List α)
  | [] => some []
  | [c] => if c = d then none else some [c]
  | c :: c' :: rest =>
    if c ≠ d then (undouble d (c' :: rest)).map (c :: ·)
    else if c' = d then (undouble d rest).map (d :: ·)
    else none

theorem undouble_cons_of_ne {d c : α} (h : c ≠ d) (s : List α) :
    undouble d (c :: s) = (undouble d s).map (c :: ·) := by
  cases s with
  | nil => simp [undouble, h]
  | cons c' s => simp [undouble, h]

theorem undouble_double (d : α) (s : List α) : undouble d (double d s) = some s := by
  induction s with
  | nil => rfl
  | cons c s ih =>
    unfold double at ih ⊢
    rw [List.flatMap_cons]
    by_cases hc : c = d
    · rw [if_pos hc, List.cons_append, List.singleton_append, undouble, ih]
      simp [hc]
    · rw [if_neg hc, List.singleton_append, undouble_cons_of_ne hc, ih]
      rfl

theorem mem_double {d c : α} {s : List α} : c ∈ double d s ↔ c ∈ s := by
  have hletter (x : α) : c ∈ (if x = d then [d, d] else [x]) ↔ c = x := by
    by_cases hx : x = d
    · simp [hx]
    · simp [hx]
  simp [double, List.mem_flatMap, hletter]

theorem double_of_notMem {d : α} {s : List α} (h : d ∉ s) : double d s = s := by
  induction s with
  | nil => rfl
  | cons c s ih =>
    have hc : c ≠ d := fun hcd => h (hcd ▸ .head _)
    have hs : double d s = s := ih fun hd => h (.tail _ hd)
    unfold double at hs ⊢
    rw [List.flatMap_cons, if_neg hc, hs, List.singleton_append]

/-- Two protections do not disturb each other. -/
theorem double_comm (d e : α) (s : List α) : double d (double e s) = double e (double d s) := by
  unfold double
  rw [List.flatMap_assoc, List.flatMap_assoc]
  refine List.flatMap_congr fun c _ => ?_
  by_cases hd : c = d
  · by_cases he : c = e
    · rw [← hd, ← he]
    · have hed : d ≠ e := hd ▸ he
      simp [hd, hed]
  · by_cases he : c = e
    · have hde : e ≠ d := he ▸ hd
      simp [he, hde]
    · simp [hd, he]

theorem double_reverse (d : α) (s : List α) : (double d s).reverse = double d s.reverse := by
  unfold double
  rw [List.reverse_flatMap]
  refine List.flatMap_congr fun c _ => ?_
  by_cases hc : c = d
  · simp [hc]
  · simp [hc]

/-- A letter that is not doubled is dropped from the one side as from the other. -/
theorem dropWhile_double {p : α → Bool} {d : α} (hp : p d = false) (s : List α) :
    (double d s).dropWhile p = double d (s.dropWhile p) := by
  induction s with
  | nil => rfl
  | cons c s ih =>
    unfold double at ih ⊢
    by_cases hc : c = d
    · simp [hc, hp]
    · by_cases hpc : p c = true
      · simp [hc, hpc, ih]
      · simp [hc, hpc]

theorem head?_double (d : α) (s : List α) : (double d s).head? = s.head? := by
  cases s with
  | nil => rfl
  | cons c s =>
    by_cases hc : c = d
    · simp [double, hc]
    · simp [double, hc]

theorem getLast?_double (d : α) (s : List α) : (double d s).getLast? = s.getLast? := by
  rw [List.getLast?_eq_head?_reverse, double_reverse, head?_double,
    ← List.getLast?_eq_head?_reverse]

end LclFastapi.Lib
