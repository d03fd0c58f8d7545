import LclFastapi.Lib.JsonTree
import LclFastapi.Lib.Run
import Mathlib.Logic.Function.Basic

/-!
# Publication of a state file (`atomic_write`, `read_state`)

Any number of `atomic_write` and `read_state` calls on one path, in any interleaving. A directory
gives names to files, and a file that is open stays what it is when its name goes to another.

* Each call is single-use and known by its number: `write w` is the `w`-th `atomic_write`, with its
  own argument `value w` and its own `uuid4`, `read q` the `q`-th `read_state`. The file that
  `write w` creates has the number `w`.
* A temporary file is written piece by piece, and a read takes what it has opened piece by piece.
  `os.replace` is one step.
* A conflict (`denied`) is possible at every attempt, every other `OSError` at every operation, and
  a writer may die anywhere (`died`).
* `finally` runs `unlink`, which may raise itself (`unlinkFailed`): the file is left then, and the
  call raises, also after a replacement.

Results:
* **`published_atomically`**: what a read returns is what the path held at one moment of the call,
  a call that raises has not replaced the path and leaves no temporary file unless `unlink` raised,
  attempts are bounded, and no scan lists a temporary file.
* `pair_joined_file_left`: a string that holds a pair of surrogates as two code points comes back
  with one, and a removal that is denied leaves the file.

A read of text that is no `dumps` of an object is never reached (`Complete.decode`).
-/

namespace LclFastapi.Runtime.StateFile

open Lib (Reachable Run Since)
open Lib.Json (Tree Fields)

/-- The content of a file. -/
abbrev Text := List Char

/-- The name of a file in the directory. -/
abbrev Name := List Char

/-- What the calls work with. -/
structure Setup where
  /-- `sys.platform == "win32"`. -/
  windows : Bool
  /-- `path.name`. -/
  name : Name
  /-- `uuid4().hex` of each `atomic_write`. -/
  uuid : Nat → Name
  /-- The object each `atomic_write` is given. -/
  value : Nat → Fields

/-- `path.with_name(f".{path.name}.{uuid4().hex}.tmp")`. -/
def Setup.temporary (c : Setup) (w : Nat) : Name :=
  '.' :: c.name ++ '.' :: c.uuid w ++ ".tmp".toList

/-- Whether a call goes on after its `attempts`-th conflict. -/
def Setup.retries (c : Setup) (attempts : Nat) : Bool := c.windows && attempts != 3

/-- How often a call may try. -/
def Setup.limit (c : Setup) : Nat := if c.windows then 3 else 1

/-- `json.loads`, an object or nothing usable. -/
def decode (text : Text) : Fields :=
  match Lib.Json.loads text with
  | some (.object fs) => fs
  | _ => .nil

/-! ## Calls -/

/-- Where an `atomic_write` is. -/
inductive Writer where
  | idle
  | makeDirs
  | dumps
  | create (text : Text)
  | writing (file : Nat) (text : Text)
  | replacing (attempts : Nat)
  | unlinking (raising : Bool)
  | finished
  | raised
  | dead

/-- Where a `read_state` is. -/
inductive Reader where
  | idle
  | waiting (attempts : Nat)
  | opening (attempts : Nat)
  | reading (attempts file : Nat) (buffer : Text)
  | returning (v : Fields)
  | returned
  | raised

/-- The attempt that a `read_state` is making. -/
def Reader.attempts? : Reader → Option Nat
  | .opening attempts | .reading attempts _ _ => some attempts
  | _ => none

/-- A call that has begun and has not ended. -/
def Writer.active : Writer → Bool
  | .idle | .finished | .raised | .dead => false
  | _ => true

/-- What a step of a write has done. -/
inductive WriteEvent where
  | call
  | moved
  | replaced
  | denied
  | replaceFailed
  | failed
  | unlinked
  | unlinkFailed
  | died
  deriving DecidableEq

/-- What a step of a read has done. -/
inductive ReadEvent where
  | call
  | attempt
  | opened
  | missing
  | moved
  | denied
  | failed
  | returned (v : Fields)

/-- A step of write `w`, or of read `q`. -/
inductive Label where
  | write (w : Nat) (e : WriteEvent)
  | read (q : Nat) (e : ReadEvent)

/-- The directory, and the calls under way. -/
structure State where
  /-- The directory of the path. -/
  files : Name → Option Nat
  content : Nat → Text
  writer : Nat → Writer
  reader : Nat → Reader

/-- Write `w` moves on. -/
def State.writeTo (s : State) (w : Nat) (pc : Writer) : State :=
  { s with writer := Function.update s.writer w pc }

/-- Read `q` moves on. -/
def State.readTo (s : State) (q : Nat) (pc : Reader) : State :=
  { s with reader := Function.update s.reader q pc }

/-- A name is given to a file, or to none. -/
def State.link (s : State) (n : Name) (f : Option Nat) : State :=
  { s with files := Function.update s.files n f }

/-- A file gets new content. -/
def State.fill (s : State) (f : Nat) (text : Text) : State :=
  { s with content := Function.update s.content f text }

/-- One atomic action of one call. -/
inductive Step (c : Setup) : State → Label → State → Prop
  | writeCall (s) (w) (hpc : s.writer w = .idle) :
      Step c s (.write w .call) (s.writeTo w .makeDirs)
  | makeDirs (s) (w) (hpc : s.writer w = .makeDirs) :
      Step c s (.write w .moved) (s.writeTo w .dumps)
  /-- `mkdir` raises before the `try`. -/
  | makeDirsFails (s) (w) (hpc : s.writer w = .makeDirs) :
      Step c s (.write w .failed) (s.writeTo w .raised)
  | dumps (s) (w) (text) (hpc : s.writer w = .dumps)
      (htext : Lib.Json.dumps (.object (c.value w)) = some text) :
      Step c s (.write w .moved) (s.writeTo w (.create text))
  | dumpsFails (s) (w) (hpc : s.writer w = .dumps) :
      Step c s (.write w .failed) (s.writeTo w (.unlinking true))
  /-- `open(…, "w")`: a new file, or an existing one emptied. -/
  | create (s) (w) (text) (f) (hpc : s.writer w = .create text)
      (hf : f = (s.files (c.temporary w)).getD w) :
      Step c s (.write w .moved)
        (((s.link (c.temporary w) (some f)).fill f []).writeTo w (.writing f text))
  | createFails (s) (w) (text) (hpc : s.writer w = .create text) :
      Step c s (.write w .failed) (s.writeTo w (.unlinking true))
  /-- More of the text has reached the file. -/
  | append (s) (w) (f) (text) (n) (hpc : s.writer w = .writing f text)
      (hn : (s.content f).length ≤ n) :
      Step c s (.write w .moved) (s.fill f (text.take n))
  | close (s) (w) (f) (text) (hpc : s.writer w = .writing f text) :
      Step c s (.write w .moved) ((s.fill f text).writeTo w (.replacing 0))
  | writeFails (s) (w) (f) (text) (hpc : s.writer w = .writing f text) :
      Step c s (.write w .failed) (s.writeTo w (.unlinking true))
  | replace (s) (w) (attempts) (f) (hpc : s.writer w = .replacing attempts)
      (hf : s.files (c.temporary w) = some f) :
      Step c s (.write w .replaced)
        (((s.link c.name (some f)).link (c.temporary w) none).writeTo w (.unlinking false))
  | replaceDenied (s) (w) (attempts) (hpc : s.writer w = .replacing attempts) :
      Step c s (.write w .denied) (s.writeTo w
        (if c.retries (attempts + 1) then .replacing (attempts + 1) else .unlinking true))
  | replaceFails (s) (w) (attempts) (hpc : s.writer w = .replacing attempts) :
      Step c s (.write w .replaceFailed) (s.writeTo w (.unlinking true))
  | unlink (s) (w) (raising) (hpc : s.writer w = .unlinking raising) :
      Step c s (.write w .unlinked)
        ((s.link (c.temporary w) none).writeTo w (if raising then .raised else .finished))
  | unlinkFails (s) (w) (raising) (hpc : s.writer w = .unlinking raising) :
      Step c s (.write w .unlinkFailed) (s.writeTo w .raised)
  | die (s) (w) (hpc : (s.writer w).active = true) :
      Step c s (.write w .died) (s.writeTo w .dead)
  | readCall (s) (q) (hpc : s.reader q = .idle) :
      Step c s (.read q .call) (s.readTo q (.waiting 0))
  | attempt (s) (q) (attempts) (hpc : s.reader q = .waiting attempts) :
      Step c s (.read q .attempt) (s.readTo q (.opening attempts))
  | openFile (s) (q) (attempts) (f) (hpc : s.reader q = .opening attempts)
      (hf : s.files c.name = some f) :
      Step c s (.read q .opened) (s.readTo q (.reading attempts f []))
  | missing (s) (q) (attempts) (hpc : s.reader q = .opening attempts)
      (hf : s.files c.name = none) :
      Step c s (.read q .missing) (s.readTo q (.returning .nil))
  /-- The next piece of what the file holds now. -/
  | take (s) (q) (attempts) (f) (buffer) (n) (hpc : s.reader q = .reading attempts f buffer) :
      Step c s (.read q .moved) (s.readTo q
        (.reading attempts f (buffer ++ ((s.content f).drop buffer.length).take n)))
  /-- The end of the file has been reached. -/
  | decode (s) (q) (attempts) (f) (buffer) (hpc : s.reader q = .reading attempts f buffer)
      (hend : (s.content f).length ≤ buffer.length) :
      Step c s (.read q .moved) (s.readTo q (.returning (decode buffer)))
  | readDenied (s) (q) (attempts) (hpc : (s.reader q).attempts? = some attempts) :
      Step c s (.read q .denied) (s.readTo q
        (if c.retries (attempts + 1) then .waiting (attempts + 1) else .raised))
  | readFails (s) (q) (attempts) (hpc : (s.reader q).attempts? = some attempts) :
      Step c s (.read q .failed) (s.readTo q .raised)
  | returns (s) (q) (v) (hpc : s.reader q = .returning v) :
      Step c s (.read q (.returned v)) (s.readTo q .returned)

/-- No call has begun, and the directory has neither the path nor a temporary name of it. -/
structure Init (s : State) : Prop where
  files : ∀ n, s.files n = none
  writer : ∀ w, s.writer w = .idle
  reader : ∀ q, s.reader q = .idle

variable {c : Setup} {s s' : State} {l : Label} {w q f i : Nat}

/-! ## Names -/

theorem temporary_ne_name (w : Nat) : c.temporary w ≠ c.name := by
  intro h
  have hlength := congrArg List.length h
  simp only [Setup.temporary, List.cons_append, List.length_cons, List.length_append] at hlength
  omega

theorem temporary_injective (huuid : Function.Injective c.uuid) :
    Function.Injective c.temporary := by
  intro w u h
  simp only [Setup.temporary, List.cons_append, List.append_assoc, List.cons.injEq, true_and,
    List.append_cancel_left_eq] at h
  exact huuid (List.append_cancel_right h)

/-! ## What the calls know -/

/-- The writing of the temporary file is over. -/
def Writer.closed : Writer → Bool
  | .idle | .makeDirs | .dumps | .create _ | .writing _ _ => false
  | _ => true

/-- The file of `write f` holds all of its text, and is written no more. -/
def Complete (c : Setup) (s : State) (f : Nat) : Prop :=
  Lib.Json.dumps (.object (c.value f)) = some (s.content f) ∧ (s.writer f).closed = true

/-- What holds where write `w` is. -/
def Writes (c : Setup) (s : State) (w : Nat) : Writer → Prop
  | .create text => Lib.Json.dumps (.object (c.value w)) = some text
  | .writing f text => f = w ∧ Lib.Json.dumps (.object (c.value w)) = some text
  | .replacing attempts =>
    attempts < c.limit ∧ Lib.Json.dumps (.object (c.value w)) = some (s.content w)
  | _ => True

/-- What holds where a read is. -/
def Reads (c : Setup) (s : State) : Reader → Prop
  | .waiting attempts | .opening attempts => attempts < c.limit
  | .reading attempts f buffer => attempts < c.limit ∧ Complete c s f ∧ buffer <+: s.content f
  | _ => True

/-- **The invariant of the directory.** -/
structure Inv (c : Setup) (s : State) : Prop where
  writes : ∀ w, Writes c s w (s.writer w)
  reads : ∀ q, Reads c s (s.reader q)
  /-- A temporary name is given to the file of its own call. -/
  own : ∀ w f, s.files (c.temporary w) = some f → f = w
  shown : ∀ f, s.files c.name = some f → Complete c s f

theorem Init.inv (h : Init s) : Inv c s := by
  refine ⟨fun w => ?_, fun q => ?_, fun w f hf => ?_, fun f hf => ?_⟩
  · rw [h.writer]
    trivial
  · rw [h.reader]
    trivial
  · cases (h.files _).symm.trans hf
  · cases (h.files _).symm.trans hf

/-- The file that `open` creates or empties is the one of the call. -/
theorem Inv.created (hi : Inv c s) (w : Nat) : (s.files (c.temporary w)).getD w = w := by
  cases hf : s.files (c.temporary w) with
  | none => rfl
  | some f => exact hi.own w f hf

theorem limit_pos : 0 < c.limit := by
  unfold Setup.limit
  split <;> decide

/-- A call that goes on has an attempt left. -/
theorem lt_limit_of_retries {n : Nat} (hn : n < c.limit) (h : c.retries (n + 1) = true) :
    n + 1 < c.limit := by
  simp only [Setup.retries, Bool.and_eq_true, bne_iff_ne] at h
  simp only [Setup.limit, if_pos h.1] at hn ⊢
  omega

/-- Only its own call changes a file, and only while it writes it. -/
theorem Step.content_cases (h : Step c s l s') (hi : Inv c s) :
    s'.content f = s.content f ∨ (∃ e, l = .write f e) ∧ (s.writer f).closed = false := by
  cases h with
  | create w text g hpc hg =>
    have hown : g = w := hg.trans (hi.created w)
    by_cases hf : f = w
    · subst hf
      exact .inr ⟨⟨_, rfl⟩, by simp [hpc, Writer.closed]⟩
    · exact .inl (by simp [State.writeTo, State.fill, State.link, hown, hf])
  | append w g text n hpc hn | close w g text hpc =>
    obtain ⟨rfl, -⟩ : Writes c s w (.writing g text) := hpc ▸ hi.writes w
    by_cases hf : f = g
    · subst hf
      exact .inr ⟨⟨_, rfl⟩, by simp [hpc, Writer.closed]⟩
    · exact .inl (by simp [State.writeTo, State.fill, hf])
  | _ => exact .inl rfl

/-- A name changes when its call creates or removes the file, or when the path gets a new one. -/
theorem Step.files_cases (h : Step c s l s') (hi : Inv c s) (n : Name) :
    s'.files n = s.files n ∨
      (∃ w e, l = .write w e ∧ n = c.temporary w ∧ (s'.files n = none ∨ s'.files n = some w)) ∨
        ∃ w attempts, l = .write w .replaced ∧ n = c.name ∧ s.writer w = .replacing attempts ∧
          s'.files n = some w := by
  cases h with
  | create w text f hpc hf =>
    by_cases hn : n = c.temporary w
    · subst hn
      refine .inr (.inl ⟨w, _, rfl, rfl, .inr ?_⟩)
      simp [State.writeTo, State.fill, State.link, hf.trans (hi.created w)]
    · exact .inl (by simp [State.writeTo, State.fill, State.link, hn])
  | replace w attempts f hpc hf =>
    by_cases hn : n = c.temporary w
    · subst hn
      exact .inr (.inl ⟨w, _, rfl, rfl, .inl (by simp [State.writeTo, State.link])⟩)
    by_cases hname : n = c.name
    · subst hname
      refine .inr (.inr ⟨w, attempts, rfl, rfl, hpc, ?_⟩)
      simp [State.writeTo, State.link, hn, hi.own w f hf]
    · exact .inl (by simp [State.writeTo, State.link, hn, hname])
  | unlink w raising hpc =>
    by_cases hn : n = c.temporary w
    · subst hn
      exact .inr (.inl ⟨w, _, rfl, rfl, .inl (by simp [State.writeTo, State.link])⟩)
    · exact .inl (by simp [State.writeTo, State.link, hn])
  | _ => exact .inl rfl

/-- A call moves in its own steps only. -/
theorem Step.writer_eq (h : Step c s l s') (hl : ∀ e, l ≠ .write w e) :
    s'.writer w = s.writer w := by
  have hne : ∀ u e, l = .write u e → w ≠ u := by
    rintro u e hle rfl
    exact hl e hle
  cases h <;> first | rfl | simp [State.writeTo, State.link, State.fill, hne _ _ rfl]

theorem Step.reader_eq (h : Step c s l s') (hl : ∀ e, l ≠ .read q e) :
    s'.reader q = s.reader q := by
  have hne : ∀ r e, l = .read r e → q ≠ r := by
    rintro r e hle rfl
    exact hl e hle
  cases h <;> first | rfl | simp [State.readTo, hne _ _ rfl]

theorem Step.closed_mono (h : Step c s l s') (hw : (s.writer w).closed = true) :
    (s'.writer w).closed = true := by
  by_cases hl : ∃ e, l = .write w e
  · obtain ⟨e, rfl⟩ := hl
    cases h with
    | append w f text n hpc hn =>
      rw [hpc] at hw
      cases hw
    | replaceDenied w attempts hpc =>
      simp only [State.writeTo, Function.update_self]
      split <;> rfl
    | unlink w raising hpc =>
      cases raising <;> simp [State.writeTo, State.link, Writer.closed]
    | _ => simp_all [State.writeTo, State.link, Writer.closed]
  · rw [h.writer_eq fun e he => hl ⟨e, he⟩]
    exact hw

/-- A complete file stays as it is. -/
theorem Complete.content_eq (hf : Complete c s f) (h : Step c s l s') (hi : Inv c s) :
    s'.content f = s.content f := by
  rcases h.content_cases hi with hsame | ⟨-, hopen⟩
  · exact hsame
  · rw [hf.2] at hopen
    cases hopen

theorem Complete.step (hf : Complete c s f) (h : Step c s l s') (hi : Inv c s) :
    Complete c s' f := by
  refine ⟨?_, h.closed_mono hf.2⟩
  rw [hf.content_eq h hi]
  exact hf.1

/-! ## The invariant -/

/-- What a call knows after its own step. -/
theorem Step.own_writes (h : Step c s (.write w e) s') (hi : Inv c s) :
    Writes c s' w (s'.writer w) := by
  have hw := hi.writes w
  cases h with
  | dumps w text hpc htext => simpa [State.writeTo, Writes] using htext
  | create w text f hpc hf =>
    have hown : f = w := hf.trans (hi.created w)
    have htext : Writes c s w (.create text) := hpc ▸ hw
    simpa [State.writeTo, Writes] using ⟨hown, htext⟩
  | append w f text n hpc hn =>
    have hw : Writes c s w (.writing f text) := hpc ▸ hw
    show Writes c _ w (s.writer w)
    rw [hpc]
    exact hw
  | close w f text hpc =>
    obtain ⟨rfl, htext⟩ : Writes c s w (.writing f text) := hpc ▸ hw
    simpa [State.writeTo, State.fill, Writes] using ⟨limit_pos, htext⟩
  | replaceDenied w attempts hpc =>
    obtain ⟨hlt, htext⟩ : Writes c s w (.replacing attempts) := hpc ▸ hw
    cases hretries : c.retries (attempts + 1) with
    | false => simp [State.writeTo, Writes]
    | true =>
      simpa [State.writeTo, hretries, Writes] using ⟨lt_limit_of_retries hlt hretries, htext⟩
  | unlink w raising hpc => cases raising <;> simp [State.writeTo, State.link, Writes]
  | _ => simp [State.writeTo, State.link, Writes]

theorem Reads.lt_limit {pc : Reader} {attempts : Nat} (h : Reads c s pc)
    (hpc : pc.attempts? = some attempts) : attempts < c.limit := by
  cases pc with
  | opening n =>
    obtain rfl : n = attempts := Option.some.inj hpc
    exact h
  | reading n f buffer =>
    obtain rfl : n = attempts := Option.some.inj hpc
    exact h.1
  | _ => cases hpc

theorem Step.own_reads (h : Step c s (.read q e) s') (hi : Inv c s) :
    Reads c s' (s'.reader q) := by
  have hq := hi.reads q
  cases h with
  | readCall q hpc => simpa [State.readTo, Reads] using limit_pos
  | attempt q attempts hpc =>
    have hlt : Reads c s (.waiting attempts) := hpc ▸ hq
    simpa [State.readTo, Reads] using hlt
  | openFile q attempts f hpc hf =>
    have hlt : Reads c s (.opening attempts) := hpc ▸ hq
    have hcomplete : Complete c s f := hi.shown f hf
    simpa [State.readTo, Reads] using ⟨hlt, hcomplete⟩
  | take q attempts f buffer n hpc =>
    obtain ⟨hlt, hcomplete, hread⟩ : Reads c s (.reading attempts f buffer) := hpc ▸ hq
    have hnext : buffer ++ ((s.content f).drop buffer.length).take n <+: s.content f := by
      obtain ⟨rest, hrest⟩ := hread
      rw [← hrest, List.drop_left]
      exact (List.prefix_append_right_inj _).mpr (List.take_prefix _ _)
    simpa [State.readTo, Reads] using ⟨hlt, hcomplete, hnext⟩
  | readDenied q attempts hpc =>
    have hlt := hq.lt_limit hpc
    cases hretries : c.retries (attempts + 1) with
    | false => simp [State.readTo, Reads]
    | true => simpa [State.readTo, hretries, Reads] using lt_limit_of_retries hlt hretries
  | _ => simp [State.readTo, Reads]

theorem inv_step (huuid : Function.Injective c.uuid) (hi : Inv c s) (h : Step c s l s') :
    Inv c s' := by
  refine ⟨fun w => ?_, fun q => ?_, fun w f hf => ?_, fun f hf => ?_⟩
  · by_cases hl : ∃ e, l = .write w e
    · obtain ⟨e, rfl⟩ := hl
      exact h.own_writes hi
    · have hw := hi.writes w
      have hcontent : s'.content w = s.content w :=
        (h.content_cases hi).resolve_right fun hown => hl hown.1
      rw [h.writer_eq fun e he => hl ⟨e, he⟩]
      revert hw
      cases s.writer w <;> simp only [Writes, hcontent] <;> exact id
  · by_cases hl : ∃ e, l = .read q e
    · obtain ⟨e, rfl⟩ := hl
      exact h.own_reads hi
    · have hq := hi.reads q
      rw [h.reader_eq fun e he => hl ⟨e, he⟩]
      cases hpc : s.reader q with
      | reading attempts f buffer =>
        obtain ⟨hlt, hcomplete, hread⟩ : Reads c s (.reading attempts f buffer) := hpc ▸ hq
        exact ⟨hlt, hcomplete.step h hi, by rwa [hcomplete.content_eq h hi]⟩
      | _ =>
        rw [hpc] at hq
        exact hq
  · rcases h.files_cases hi (c.temporary w) with hsame | ⟨u, e, -, hu, hnone | hsome⟩ |
        ⟨u, attempts, -, hname, -⟩
    · exact hi.own w f (hsame ▸ hf)
    · cases hnone.symm.trans hf
    · obtain rfl : u = f := Option.some.inj (hsome.symm.trans hf)
      exact (temporary_injective huuid hu).symm
    · exact absurd hname (temporary_ne_name w)
  · rcases h.files_cases hi c.name with hsame | ⟨u, e, -, hu, -⟩ | ⟨u, attempts, rfl, -, hpc, hsome⟩
    · exact (hi.shown f (hsame ▸ hf)).step h hi
    · exact absurd hu.symm (temporary_ne_name u)
    · obtain rfl : u = f := Option.some.inj (hsome.symm.trans hf)
      obtain ⟨-, htext⟩ : Writes c s u (.replacing attempts) := hpc ▸ hi.writes u
      have hcomplete : Complete c s u := ⟨htext, by simp [hpc, Writer.closed]⟩
      exact hcomplete.step h hi

/-! ## The path -/

/-- What the path holds. -/
def State.shown (c : Setup) (s : State) : Option Text := (s.files c.name).map s.content

theorem Step.shown_eq (h : Step c s l s') (hi : Inv c s) (hl : ∀ w, l ≠ .write w .replaced) :
    s'.files c.name = s.files c.name := by
  rcases h.files_cases hi c.name with hsame | ⟨u, e, -, hu, -⟩ | ⟨u, attempts, hle, -⟩
  · exact hsame
  · exact absurd hu.symm (temporary_ne_name u)
  · exact absurd hle (hl u)

theorem Step.shown_same (h : Step c s l s') (hi : Inv c s) (hl : ∀ w, l ≠ .write w .replaced) :
    s'.shown c = s.shown c := by
  unfold State.shown
  rw [h.shown_eq hi hl]
  cases hf : s.files c.name with
  | none => rfl
  | some f => rw [Option.map_some, Option.map_some, (hi.shown f hf).content_eq h hi]

theorem Step.returning {v : Fields} (h : Step c s (.read q (.returned v)) s') :
    s.reader q = .returning v := by
  cases h with
  | returns q v hpc => exact hpc

theorem Step.shown_replaced (h : Step c s (.write w .replaced) s') (hi : Inv c s) :
    s'.files c.name = some w := by
  cases h with
  | replace w attempts f hpc hf =>
    simp [State.writeTo, State.link, hi.own w f hf, (temporary_ne_name w).symm]

section Runs

variable (r : Run (Step c))

/-- The path has not been replaced yet. -/
def Unpublished (i : Nat) : Prop := ∀ m, m < i → ∀ w, r.label m ≠ .write w .replaced

/-- The most recent replacement is the one of `write w`. -/
def Latest (w : Nat) : Nat → Prop :=
  Since (fun m => r.label m = .write w .replaced) fun m => ∀ u, r.label m ≠ .write u .replaced

/-- What the path has been replaced with. -/
def Shows (i : Nat) : Option Nat → Prop
  | none => Unpublished r i
  | some w => Latest r w i

/-- What a reader that opens the path at the moment `i` is to be given: a value is the one written,
with its pairs of surrogates joined. -/
def Published (i : Nat) (v : Fields) : Prop :=
  (Unpublished r i ∧ v = .nil) ∨
    ∃ w, Latest r w i ∧ v = (c.value w).join ∧
      ((Tree.object (c.value w)).unpaired = true → v = c.value w)

variable {r}

theorem inv_at (huuid : Function.Injective c.uuid) (h0 : Init (r.state 0)) :
    ∀ i, i ≤ r.length → Inv c (r.state i) :=
  r.invariant h0.inv fun _ _ _ h hi => inv_step huuid hi h

theorem shows_at (huuid : Function.Injective c.uuid) (h0 : Init (r.state 0)) :
    ∀ i, i ≤ r.length → Shows r i ((r.state i).files c.name) := by
  intro i hi
  induction i with
  | zero =>
    rw [h0.files]
    exact fun m hm => absurd hm (Nat.not_lt_zero m)
  | succ i ih =>
    have hinv := inv_at huuid h0 i (Nat.le_of_succ_le hi)
    have hstep := r.step_ok i hi
    by_cases hl : ∃ w, r.label i = .write w .replaced
    · obtain ⟨w, hl⟩ := hl
      have hreplaced : Step c (r.state i) (.write w .replaced) (r.state (i + 1)) := hl ▸ hstep
      rw [hreplaced.shown_replaced hinv]
      exact Since.now hl
    · have hl : ∀ w, r.label i ≠ .write w .replaced := not_exists.mp hl
      have hprev := ih (Nat.le_of_succ_le hi)
      rw [hstep.shown_eq hinv hl]
      cases hshown : (r.state i).files c.name with
      | none =>
        rw [hshown] at hprev
        intro m hm
        rcases Nat.lt_succ_iff_lt_or_eq.mp hm with hlt | rfl
        · exact hprev m hlt
        · exact hl
      | some w =>
        rw [hshown] at hprev
        exact Since.succ hprev hl

/-! ## Reading -/

/-- A complete file is decoded to what was written. -/
theorem Complete.decode (hf : Complete c s f) (hsound : (Tree.object (c.value f)).sound = true) :
    decode (s.content f) = (c.value f).join := by
  obtain ⟨htext, -⟩ := hf
  unfold Lib.Json.dumps at htext
  split at htext
  · rename_i hshort
    rw [← Option.some.inj htext, StateFile.decode, Lib.Json.loads_text hsound hshort, Tree.join]
  · cases htext

theorem Latest.published (hw : Latest r w i) (hsound : (Tree.object (c.value w)).sound = true) :
    Published r i (c.value w).join := by
  refine .inr ⟨w, hw, rfl, fun hunpaired => ?_⟩
  have hjoin := Tree.join_eq_self hsound hunpaired
  rw [Tree.join] at hjoin
  exact Tree.object.inj hjoin

variable (r) in
/-- What the history of a reader has been. -/
def Told (i q : Nat) : Reader → Prop
  | .waiting _ | .opening _ => ∃ j, j < i ∧ r.label j = .read q .call
  | .reading _ f _ =>
    ∃ j k, j < k ∧ k < i ∧ r.label j = .read q .call ∧ (r.state k).files c.name = some f
  | .returning v => ∃ j k, j < k ∧ k < i ∧ r.label j = .read q .call ∧ Published r k v
  | _ => True

theorem Told.mono {i j q : Nat} {pc : Reader} (hij : i ≤ j) (h : Told r i q pc) :
    Told r j q pc := by
  cases pc with
  | waiting | opening =>
    obtain ⟨m, hm, hl⟩ := h
    exact ⟨m, Nat.lt_of_lt_of_le hm hij, hl⟩
  | reading | returning =>
    obtain ⟨m, k, hmk, hk, hl⟩ := h
    exact ⟨m, k, hmk, Nat.lt_of_lt_of_le hk hij, hl⟩
  | _ => trivial

theorem Told.called {q attempts : Nat} {pc : Reader} (h : Told r i q pc)
    (hpc : pc.attempts? = some attempts) : ∃ j, j < i ∧ r.label j = .read q .call := by
  cases pc with
  | opening => exact h
  | reading =>
    obtain ⟨j, k, hjk, hk, hcall, -⟩ := h
    exact ⟨j, Nat.lt_trans hjk hk, hcall⟩
  | _ => cases hpc

/-- A step of a reader adds its own event to the history. -/
theorem told_own {q : Nat} {e : ReadEvent} (hsound : ∀ w, (Tree.object (c.value w)).sound = true)
    (hi : Inv c s) (hs : r.state i = s)
    (hshows : ∀ k, k ≤ i → Shows r k ((r.state k).files c.name))
    (h : Step c s (.read q e) s') (hl : r.label i = .read q e) (ht : Told r i q (s.reader q)) :
    Told r (i + 1) q (s'.reader q) := by
  have hq := hi.reads q
  cases h with
  | readCall q hpc => simpa [State.readTo, Told] using ⟨i, Nat.le_refl i, hl⟩
  | attempt q attempts hpc =>
    have hcall : Told r i q (.waiting attempts) := hpc ▸ ht
    have hnext : Told r (i + 1) q (.opening attempts) := hcall.mono (Nat.le_succ i)
    simpa [State.readTo] using hnext
  | openFile q attempts f hpc hf =>
    obtain ⟨j, hj, hcall⟩ : Told r i q (.opening attempts) := hpc ▸ ht
    have hnext : Told r (i + 1) q (.reading attempts f []) :=
      ⟨j, i, hj, Nat.lt_succ_self i, hcall, by rw [hs, hf]⟩
    simpa [State.readTo] using hnext
  | missing q attempts hpc hf =>
    obtain ⟨j, hj, hcall⟩ : Told r i q (.opening attempts) := hpc ▸ ht
    have hnone : Shows r i none := by
      have hshown := hshows i (Nat.le_refl i)
      rwa [hs, hf] at hshown
    have hnext : Told r (i + 1) q (.returning .nil) :=
      ⟨j, i, hj, Nat.lt_succ_self i, hcall, .inl ⟨hnone, rfl⟩⟩
    simpa [State.readTo] using hnext
  | take q attempts f buffer n hpc =>
    have hread : Told r i q (.reading attempts f buffer) := hpc ▸ ht
    have hnext : Told r (i + 1) q
        (.reading attempts f (buffer ++ ((s.content f).drop buffer.length).take n)) :=
      hread.mono (Nat.le_succ i)
    simpa [State.readTo] using hnext
  | decode q attempts f buffer hpc hend =>
    obtain ⟨j, k, hjk, hk, hcall, hfile⟩ : Told r i q (.reading attempts f buffer) := hpc ▸ ht
    obtain ⟨-, hcomplete, hread⟩ : Reads c s (.reading attempts f buffer) := hpc ▸ hq
    have hlatest : Latest r f k := by
      have hshown := hshows k (Nat.le_of_lt hk)
      rwa [hfile] at hshown
    have hpublished : Published r k (decode buffer) := by
      rw [hread.eq_of_length_le hend, hcomplete.decode (hsound f)]
      exact hlatest.published (hsound f)
    have hnext : Told r (i + 1) q (.returning (decode buffer)) :=
      ⟨j, k, hjk, Nat.lt_succ_of_lt hk, hcall, hpublished⟩
    simpa [State.readTo] using hnext
  | readDenied q attempts hpc =>
    obtain ⟨j, hj, hcall⟩ := ht.called hpc
    cases hretries : c.retries (attempts + 1) with
    | false => simp [State.readTo, Told]
    | true => simpa [State.readTo, hretries, Told] using ⟨j, Nat.le_of_lt hj, hcall⟩
  | _ => simp [State.readTo, Told]

theorem told_at (huuid : Function.Injective c.uuid)
    (hsound : ∀ w, (Tree.object (c.value w)).sound = true) (h0 : Init (r.state 0)) (q : Nat) :
    ∀ i, i ≤ r.length → Told r i q ((r.state i).reader q) := by
  intro i hi
  induction i with
  | zero =>
    rw [h0.reader]
    trivial
  | succ i ih =>
    have hprev := ih (Nat.le_of_succ_le hi)
    have hstep := r.step_ok i hi
    by_cases hl : ∃ e, r.label i = .read q e
    · obtain ⟨e, hl⟩ := hl
      exact told_own hsound (inv_at huuid h0 i (Nat.le_of_succ_le hi)) rfl
        (fun k hk => shows_at huuid h0 k (Nat.le_trans hk (Nat.le_of_succ_le hi))) (hl ▸ hstep) hl
        hprev
    · rw [hstep.reader_eq fun e he => hl ⟨e, he⟩]
      exact hprev.mono (Nat.le_succ i)

/-! ## Failures -/

variable (r) in
/-- `write w` has not replaced the path. -/
def Unreplaced (i w : Nat) : Prop := ∀ m, m < i → r.label m ≠ .write w .replaced

theorem Unreplaced.succ (h : Unreplaced r i w) (hl : r.label i ≠ .write w .replaced) :
    Unreplaced r (i + 1) w := by
  intro m hm
  rcases Nat.lt_succ_iff_lt_or_eq.mp hm with hlt | rfl
  · exact h m hlt
  · exact hl

/-- A call that has failed, or has not replaced the path yet. -/
def Writer.unreplaced : Writer → Bool
  | .unlinking false | .finished | .dead => false
  | _ => true

/-- A call that has no temporary file, unless removing it failed. -/
def Writer.absent : Writer → Bool
  | .idle | .makeDirs | .raised => true
  | _ => false

theorem Step.unreplaced {e : WriteEvent} (h : Step c s (.write w e) s') (he : e ≠ .unlinkFailed)
    (hw : (s'.writer w).unreplaced = true) :
    (s.writer w).unreplaced = true ∧ e ≠ .replaced := by
  cases h with
  | append w f text n hpc hn => exact ⟨hw, nofun⟩
  | unlink w raising hpc =>
    cases raising with
    | false => simp [State.writeTo, Writer.unreplaced] at hw
    | true => simp [hpc, Writer.unreplaced]
  | unlinkFails => exact absurd rfl he
  | _ => simp_all [State.writeTo, Writer.unreplaced]

theorem Step.absent {e : WriteEvent} (h : Step c s (.write w e) s') (he : e ≠ .unlinkFailed)
    (hw : (s'.writer w).absent = true) :
    s'.files (c.temporary w) = none ∨
      ((s.writer w).absent = true ∧ s'.files = s.files) := by
  cases h with
  | append w f text n hpc hn => exact .inr ⟨hw, rfl⟩
  | replaceDenied w attempts hpc =>
    cases hretries : c.retries (attempts + 1) <;>
      simp [State.writeTo, hretries, Writer.absent] at hw
  | unlink w raising hpc => exact .inl (by simp [State.writeTo, State.link])
  | unlinkFails => exact absurd rfl he
  | _ => simp_all [State.writeTo, State.link, Writer.absent]

/-- What a call leaves while its `unlink` has not raised. -/
theorem traceless_at (huuid : Function.Injective c.uuid) (h0 : Init (r.state 0)) (w : Nat) :
    ∀ i, i ≤ r.length → (∀ m, m < i → r.label m ≠ .write w .unlinkFailed) →
      (((r.state i).writer w).unreplaced = true → Unreplaced r i w) ∧
        (((r.state i).writer w).absent = true → (r.state i).files (c.temporary w) = none) := by
  intro i hi hnot
  induction i with
  | zero => exact ⟨fun _ m hm => absurd hm (Nat.not_lt_zero m), fun _ => h0.files _⟩
  | succ i ih =>
    obtain ⟨hun, habsent⟩ := ih (Nat.le_of_succ_le hi) fun m hm => hnot m (Nat.lt_succ_of_lt hm)
    have hstep := r.step_ok i hi
    have hinv := inv_at huuid h0 i (Nat.le_of_succ_le hi)
    by_cases hl : ∃ e, r.label i = .write w e
    · obtain ⟨e, hl⟩ := hl
      have hown : Step c (r.state i) (.write w e) (r.state (i + 1)) := hl ▸ hstep
      have he : e ≠ .unlinkFailed := fun h => hnot i (Nat.lt_succ_self i) (by rw [hl, h])
      refine ⟨fun hw => ?_, fun hw => ?_⟩
      · obtain ⟨hprev, hne⟩ := hown.unreplaced he hw
        exact (hun hprev).succ (by simpa [hl] using hne)
      · rcases hown.absent he hw with hnone | ⟨hprev, hfiles⟩
        · exact hnone
        · rw [hfiles]
          exact habsent hprev
    · have hl : ∀ e, r.label i ≠ .write w e := not_exists.mp hl
      rw [hstep.writer_eq hl]
      refine ⟨fun hw => (hun hw).succ (hl _), fun hw => ?_⟩
      rcases hstep.files_cases hinv (c.temporary w) with hsame | ⟨u, e, hle, hu, -⟩ |
        ⟨u, attempts, -, hname, -⟩
      · rw [hsame]
        exact habsent hw
      · exact absurd (temporary_injective huuid hu ▸ hle) (hl e)
      · exact absurd hname (temporary_ne_name w)

/-! ## Attempts -/

/-- The attempts an `atomic_write` has left. -/
def Writer.left (c : Setup) : Writer → Nat
  | .idle | .makeDirs | .dumps | .create _ | .writing _ _ => c.limit
  | .replacing attempts => c.limit - attempts
  | _ => 0

/-- The attempts a `read_state` has left. -/
def Reader.left (c : Setup) : Reader → Nat
  | .idle => c.limit
  | .waiting attempts => c.limit - attempts
  | .opening attempts | .reading attempts _ _ => c.limit - (attempts + 1)
  | _ => 0

/-- `write w` calls `os.replace`. -/
def Label.replaces (w : Nat) : Label → Bool
  | .write u .replaced | .write u .denied | .write u .replaceFailed => u == w
  | _ => false

/-- `read q` calls `read_text`. -/
def Label.opens (q : Nat) : Label → Bool
  | .read r .attempt => r == q
  | _ => false

/-- A call of `os.replace` uses up an attempt. -/
theorem Step.writer_left (h : Step c s l s') (hi : Inv c s) :
    (s'.writer w).left c + (if l.replaces w then 1 else 0) ≤ (s.writer w).left c := by
  by_cases hl : ∃ e, l = .write w e
  · obtain ⟨e, rfl⟩ := hl
    have hw := hi.writes w
    cases h with
    | append w f text n hpc hn => exact Nat.le_refl _
    | replaceDenied w attempts hpc =>
      obtain ⟨hlt, -⟩ : Writes c s w (.replacing attempts) := hpc ▸ hw
      cases c.retries (attempts + 1) <;>
        simp [State.writeTo, Label.replaces, Writer.left, hpc] <;> omega
    | replace w attempts f hpc hf | replaceFails w attempts hpc =>
      obtain ⟨hlt, -⟩ : Writes c s w (.replacing attempts) := hpc ▸ hw
      simp [State.writeTo, State.link, Label.replaces, Writer.left, hpc]
      omega
    | unlink w raising hpc =>
      cases raising <;> simp [State.writeTo, State.link, Label.replaces, Writer.left]
    | _ => simp_all [State.writeTo, State.link, State.fill, Label.replaces, Writer.left]
  · have hl : ∀ e, l ≠ .write w e := not_exists.mp hl
    have hother : l.replaces w = false := by
      unfold Label.replaces
      split <;> first | rfl | exact beq_false_of_ne fun he => hl _ (by rw [he])
    rw [h.writer_eq hl, hother]
    exact Nat.le_refl _

/-- A call of `read_text` uses up an attempt. -/
theorem Step.reader_left (h : Step c s l s') (hi : Inv c s) :
    (s'.reader q).left c + (if l.opens q then 1 else 0) ≤ (s.reader q).left c := by
  by_cases hl : ∃ e, l = .read q e
  · obtain ⟨e, rfl⟩ := hl
    have hq := hi.reads q
    cases h with
    | attempt q attempts hpc =>
      have hlt : Reads c s (.waiting attempts) := hpc ▸ hq
      simp only [Reads] at hlt
      simp [State.readTo, Label.opens, Reader.left, hpc]
      omega
    | readDenied q attempts hpc =>
      cases hretries : c.retries (attempts + 1) with
      | false => simp [State.readTo, Label.opens, Reader.left]
      | true =>
        have hleft : (s.reader q).left c = c.limit - (attempts + 1) := by
          revert hpc
          cases s.reader q <;> simp [Reader.attempts?, Reader.left] <;> intro he <;> rw [he]
        have hnext : (s.readTo q (.waiting (attempts + 1))).reader q = .waiting (attempts + 1) :=
          Function.update_self ..
        rw [if_pos rfl, hnext, hleft]
        exact Nat.le_refl _
    | _ => simp_all [State.readTo, Label.opens, Reader.left]
  · have hl : ∀ e, l ≠ .read q e := not_exists.mp hl
    have hother : l.opens q = false := by
      unfold Label.opens
      split <;> first | rfl | exact beq_false_of_ne fun he => hl _ (by rw [he])
    rw [h.reader_eq hl, hother]
    exact Nat.le_refl _

theorem replaces_le (huuid : Function.Injective c.uuid) (h0 : Init (r.state 0)) (w : Nat) :
    r.count (Label.replaces w) 0 r.length ≤ c.limit := by
  have hrank := r.count_rank (p := Label.replaces w) (f := fun s => (s.writer w).left c)
    (Nat.zero_le r.length) (Nat.le_refl _) fun k _ hk =>
      (r.step_ok k hk).writer_left (inv_at huuid h0 k (Nat.le_of_lt hk))
  simp only [h0.writer, Writer.left] at hrank
  exact Nat.le_of_add_left_le hrank

theorem opens_le (huuid : Function.Injective c.uuid) (h0 : Init (r.state 0)) (q : Nat) :
    r.count (Label.opens q) 0 r.length ≤ c.limit := by
  have hrank := r.count_rank (p := Label.opens q) (f := fun s => (s.reader q).left c)
    (Nat.zero_le r.length) (Nat.le_refl _) fun k _ hk =>
      (r.step_ok k hk).reader_left (inv_at huuid h0 k (Nat.le_of_lt hk))
  simp only [h0.reader, Reader.left] at hrank
  exact Nat.le_of_add_left_le hrank

/-! ## Scans -/

/-- Whether a name matches `*.json`; Windows does not tell upper from lower case. -/
def matchesJson (windows : Bool) (n : Name) : Bool :=
  ".json".toList.isSuffixOf (if windows then n.map Char.toLower else n)

/-- `directory.glob("*.json")` lists the name. -/
def Scanned (c : Setup) (s : State) (n : Name) : Prop :=
  s.files n ≠ none ∧ matchesJson c.windows n = true

/-- A temporary name ends in `.tmp`, in either case. -/
theorem temporary_suffix (w : Nat) :
    ".tmp".toList <:+ if c.windows then (c.temporary w).map Char.toLower else c.temporary w := by
  split
  · simp only [Setup.temporary, List.map_append]
    exact List.suffix_append_of_suffix (by decide)
  · exact List.suffix_append _ _

theorem temporary_not_matches (w : Nat) : matchesJson c.windows (c.temporary w) = false := by
  by_contra h
  have hjson := List.isSuffixOf_iff_suffix.mp (Bool.not_eq_false _ ▸ h)
  have hsuffix := List.suffix_of_suffix_length_le (temporary_suffix w) hjson (by decide)
  revert hsuffix
  decide

/-! ## Publication -/

/-- **State files are published atomically, and failures leave no trace** but for a temporary file
whose own removal fails. -/
theorem published_atomically (huuid : Function.Injective c.uuid)
    (hsound : ∀ w, (Tree.object (c.value w)).sound = true) (r : Run (Step c))
    (h0 : Init (r.state 0)) :
    (∀ i q v, i < r.length → r.label i = .read q (.returned v) →
      ∃ j k, j < k ∧ k < i ∧ r.label j = .read q .call ∧ Published r k v) ∧
    (∀ i, i < r.length → (∀ w, r.label i ≠ .write w .replaced) →
      (r.state (i + 1)).shown c = (r.state i).shown c) ∧
    (∀ i w, i ≤ r.length → (r.state i).writer w = .raised →
      (∀ m, m < i → r.label m ≠ .write w .unlinkFailed) →
        Unreplaced r i w ∧ (r.state i).files (c.temporary w) = none) ∧
    (∀ w, r.count (Label.replaces w) 0 r.length ≤ if c.windows then 3 else 1) ∧
    (∀ q, r.count (Label.opens q) 0 r.length ≤ if c.windows then 3 else 1) ∧
    ∀ i w, i ≤ r.length → ¬ Scanned c (r.state i) (c.temporary w) := by
  refine ⟨fun i q v hi hl => ?_, fun i hi hl => ?_, fun i w hi hw hnot => ?_,
    replaces_le huuid h0, opens_le huuid h0, fun i w _ hscan => ?_⟩
  · have hstep : Step c (r.state i) (.read q (.returned v)) (r.state (i + 1)) :=
      hl ▸ r.step_ok i hi
    have ht := told_at huuid hsound h0 q i (Nat.le_of_lt hi)
    rw [hstep.returning] at ht
    exact ht
  · exact (r.step_ok i hi).shown_same (inv_at huuid h0 i (Nat.le_of_lt hi)) hl
  · obtain ⟨hun, habsent⟩ := traceless_at huuid h0 w i hi hnot
    rw [hw] at hun habsent
    exact ⟨hun rfl, habsent rfl⟩
  · have hmatches := hscan.2
    rw [temporary_not_matches] at hmatches
    cases hmatches

end Runs

/-! ## Why the exceptions -/

section Exceptions

/-- The calls of one worker on `0.json`. -/
def calls (windows : Bool) (value : Fields) : Setup where
  windows := windows
  name := "0.json".toList
  uuid := Nat.toDigits 10
  value _ := value

theorem calls_uuid (windows : Bool) (value : Fields) :
    Function.Injective (calls windows value).uuid := by
  intro w u h
  have hread := congrArg (fun ds => Nat.ofDigitChars 10 ds 0) h
  simpa [calls] using hread

/-- An empty directory. -/
def initial : State where
  files _ := none
  content _ := []
  writer _ := .idle
  reader _ := .idle

theorem initial_init : Init initial := ⟨fun _ => rfl, fun _ => rfl, fun _ => rfl⟩

/-- An object whose one string is the given one. -/
def named (s : List Nat) : Fields := .cons [0x6E] (.scalar (.str s)) .nil

variable {text : Text}

/-- The file has been written, and `os.replace` is about to be called. -/
theorem written_reachable (htext : Lib.Json.dumps (.object (c.value 0)) = some text) :
    ∃ s, Reachable Init (Step c) s ∧ s.writer 0 = .replacing 0 ∧
      s.files (c.temporary 0) = some 0 ∧ s.content 0 = text ∧ s.reader 0 = .idle := by
  have h : Reachable Init (Step c) _ := (Reachable.start initial_init).next (.writeCall _ 0 rfl)
  have h := h.next (.makeDirs _ 0 rfl)
  have h := h.next (.dumps _ 0 text rfl htext)
  have h := h.next (.create _ 0 text 0 rfl rfl)
  have h := h.next (.close _ 0 0 text rfl)
  exact ⟨_, h, rfl, by simp [State.writeTo, State.fill, State.link],
    by simp [State.writeTo, State.fill], rfl⟩

/-- A call on its own is read back. -/
theorem read_reachable (htext : Lib.Json.dumps (.object (c.value 0)) = some text) :
    ∃ s, Reachable Init (Step c) s ∧ s.reader 0 = .returning (decode text) := by
  obtain ⟨s, h, hpc, hf, hcontent, hidle⟩ := written_reachable htext
  have h := h.next (.replace s 0 0 0 hpc hf)
  have hname : ((s.link c.name (some 0)).link (c.temporary 0) none).files c.name = some 0 := by
    simp [State.link, (temporary_ne_name 0).symm]
  have h := h.next (.readCall _ 0 hidle)
  have h := h.next (.attempt _ 0 0 rfl)
  have h := h.next (.openFile _ 0 0 0 rfl hname)
  obtain ⟨s, h, hpc, hcontent⟩ :
      ∃ s, Reachable Init (Step c) s ∧ s.reader 0 = .reading 0 0 [] ∧ s.content 0 = text :=
    ⟨_, h, rfl, hcontent⟩
  have h := h.next (.take s 0 0 0 [] text.length hpc)
  simp only [hcontent, List.length_nil, List.drop_zero, List.take_length, List.nil_append] at h
  exact ⟨_, h.next (.decode _ 0 0 0 text rfl (by simp [State.readTo, hcontent])), rfl⟩

/-- A call on its own is read back, and the value is returned. -/
theorem read_run (htext : Lib.Json.dumps (.object (c.value 0)) = some text) :
    ∃ r : Run (Step c), Init (r.state 0) ∧
      ∃ i, i < r.length ∧ r.label i = .read 0 (.returned (decode text)) := by
  obtain ⟨s, h, hpc⟩ := read_reachable htext
  obtain ⟨r, h0, rfl⟩ := h.run (.write 0 .call)
  exact ⟨r.snoc (.returns _ 0 _ hpc), by simpa [Run.snoc] using h0, r.length,
    Nat.lt_succ_self _, by simp [Run.snoc]⟩

/-- The replacement is denied three times, and the removal of the temporary file as well. -/
theorem left_reachable (value : Fields)
    (htext : Lib.Json.dumps (.object value) = some text) :
    ∃ s, Reachable Init (Step (calls true value)) s ∧ s.writer 0 = .raised ∧
      s.files ((calls true value).temporary 0) = some 0 := by
  obtain ⟨s, h, hpc, hf, -⟩ := written_reachable (c := calls true value) htext
  have h := h.next (.replaceDenied s 0 0 hpc)
  have h := h.next (.replaceDenied _ 0 1 rfl)
  have h := h.next (.replaceDenied _ 0 2 rfl)
  exact ⟨_, h.next (.unlinkFails _ 0 true rfl), rfl, hf⟩

/-- Every value returned is the one written. -/
def ReadsWritten (r : Run (Step c)) : Prop :=
  ∀ i q v, i < r.length → r.label i = .read q (.returned v) →
    ∃ j k, j < k ∧ k < i ∧ r.label j = .read q .call ∧
      ((Unpublished r k ∧ v = .nil) ∨ ∃ w, Latest r w k ∧ v = c.value w)

/-- Every call that has raised has left nothing. -/
def FailsTraceless (r : Run (Step c)) : Prop :=
  ∀ i w, i ≤ r.length → (r.state i).writer w = .raised →
    Unreplaced r i w ∧ (r.state i).files (c.temporary w) = none

/-- **Both exceptions are needed**: a pair of surrogates is read as one code point, and a temporary
file that cannot be removed stays. -/
theorem pair_joined_file_left :
    (∃ c : Setup, Function.Injective c.uuid ∧ (∀ w, (Tree.object (c.value w)).sound = true) ∧
      ∃ r : Run (Step c), Init (r.state 0) ∧ ¬ ReadsWritten r) ∧
    ∃ c : Setup, Function.Injective c.uuid ∧ (∀ w, (Tree.object (c.value w)).sound = true) ∧
      ∃ r : Run (Step c), Init (r.state 0) ∧ ¬ FailsTraceless r := by
  constructor
  · have hsound : (Tree.object (named [0xD83D, 0xDE00])).sound = true := by decide
    have hshort : (Tree.object (named [0xD83D, 0xDE00])).short = true := by decide
    have hdecode : decode (Tree.text (.object (named [0xD83D, 0xDE00]))) = named [0x1F600] := by
      unfold decode
      rw [Lib.Json.loads_text hsound hshort]
      rfl
    have htext : Lib.Json.dumps (.object (named [0xD83D, 0xDE00])) =
        some (Tree.text (.object (named [0xD83D, 0xDE00]))) := rfl
    obtain ⟨r, h0, i, hi, hl⟩ := read_run (c := calls false (named [0xD83D, 0xDE00])) htext
    refine ⟨_, calls_uuid _ _, fun _ => hsound, r, h0, fun hread => ?_⟩
    rw [hdecode] at hl
    obtain ⟨j, k, -, -, -, ⟨-, hv⟩ | ⟨w, -, hv⟩⟩ := hread i 0 _ hi hl
    · simp [named] at hv
    · simp [named, calls] at hv
  · have htext : Lib.Json.dumps (.object (named [])) = some (Tree.text (.object (named []))) := rfl
    obtain ⟨s, h, hpc, hf⟩ := left_reachable (named []) htext
    obtain ⟨r, h0, rfl⟩ := h.run (.write 0 .call)
    have hsound : (Tree.object (named [])).sound = true := by decide
    refine ⟨_, calls_uuid _ _, fun _ => hsound, r, h0, fun hclean => ?_⟩
    obtain ⟨-, hnone⟩ := hclean r.length 0 (Nat.le_refl _) hpc
    cases hf.symm.trans hnone

/-- A value without such a pair is returned as it was written. -/
theorem published_atomically_read :
    ∃ r : Run (Step (calls true (named [0x61]))), Init (r.state 0) ∧
      ∃ k, Published r k (named [0x61]) := by
  have hsound : (Tree.object (named [0x61])).sound = true := by decide
  have hshort : (Tree.object (named [0x61])).short = true := by decide
  have hdecode : decode (Tree.text (.object (named [0x61]))) = named [0x61] := by
    unfold decode
    rw [Lib.Json.loads_text hsound hshort]
    rfl
  have htext : Lib.Json.dumps (.object (named [0x61])) =
      some (Tree.text (.object (named [0x61]))) := rfl
  obtain ⟨r, h0, i, hi, hl⟩ := read_run (c := calls true (named [0x61])) htext
  rw [hdecode] at hl
  obtain ⟨j, k, -, -, -, hpublished⟩ :=
    (published_atomically (calls_uuid true _) (fun _ => hsound) r h0).1 i 0 _ hi hl
  exact ⟨r, h0, k, hpublished⟩

end Exceptions

end LclFastapi.Runtime.StateFile
