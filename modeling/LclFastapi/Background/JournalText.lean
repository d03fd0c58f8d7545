import LclFastapi.Lib.Json
import LclFastapi.Lib.Lines
import LclFastapi.Lib.Run

/-!
# The bytes of a background journal (`background/journal.py`)

`BackgroundJournal.emit` and `flush` on one side, `BackgroundEvents.read` on the other, over the
bytes of one journal. `Background.Journal` has the same calls over complete lines.

* A queued event is `Event`; its line is the JSON text of `record`, in ASCII, and a newline.
  `flush` is a step where it succeeds: `encodable`.
* `loads` is `json.loads` on a line. What it makes of a flat object as `flush` writes it is
  `Lib.Json`; what it makes of any other line is the parameter `decoder`.
* The file is the list of its complete lines, each one of the process or of somebody else. A call
  of `read` is shown its first `cut` bytes, for any `cut`.
* `self.stopping`, which `read` keeps as well, is in `Background.Journal`.

**Headline:** `journal_decoded`: the calls of `read` return the events whose newline has been
shown, in order and once, with the surrogate pairs of each message joined. `pair_not_returned`:
without the joining it fails, for a message that holds the two surrogates as two code points.
-/

namespace LclFastapi.Background.JournalText

open Lib (Run)
open Lib.Json (Str Scalar Object join joinPair objectText scanObject)
open Lib.Lines (lines IsLine fitting)

/-- The content of a file. -/
abbrev Bytes := List UInt8

/-- The byte that ends a line. -/
def newline : UInt8 := 10

/-! ## The writer -/

/-- The code points of a key. -/
def codes (s : String) : Str := s.toList.map Char.toNat

/-- `process_identity() | {"service_id": secrets.token_hex(16)}`. -/
structure Identity where
  pid : Int
  process_create_time : Lib.Json.Float
  service_id : Str
  pid_pos : 0 < pid
  ascii : ∀ c ∈ service_id, c < 0x80

/-- The entries of the identity in a record. -/
def Identity.fields (identity : Identity) : Object :=
  [(codes "pid", .int identity.pid),
    (codes "process_create_time", .float identity.process_create_time),
    (codes "service_id", .str identity.service_id)]

/-- The arguments of `emit`. -/
structure Event where
  level : Int
  message : Str
  /-- `**fields`: callers pass a deadline, the completion marker, or neither. -/
  fields : Object
  keys : ∀ f ∈ fields, f.1 = codes "deadline" ∨ f.1 = codes "retired"
  nodup : (fields.map Prod.fst).Nodup

/-- `event | {"sequence": sequence}`. -/
def record (identity : Identity) (e : Event) (sequence : Nat) : Object :=
  identity.fields ++
    ([(codes "level", .int e.level), (codes "message", .str e.message)] ++
      (e.fields ++ [(codes "sequence", .int sequence)]))

/-- The UTF-8 encoding of an ASCII text. -/
def ascii (text : List Char) : Bytes := text.map fun c => UInt8.ofNat c.toNat

/-- `json.dumps(...) + "\n"`, as bytes. -/
def recordLine (identity : Identity) (e : Event) (sequence : Nat) : Bytes :=
  ascii (objectText (record identity e sequence)) ++ [newline]

/-- The journal of a process; `sequence` is the number of its last record. -/
structure BackgroundJournal where
  identity : Identity
  queue : List Event
  sequence : Nat

/-- `emit`, with the event it makes. -/
def BackgroundJournal.emit (j : BackgroundJournal) (e : Event) : BackgroundJournal :=
  { j with queue := j.queue ++ [e] }

/-- The loop of `flush`: the numbered events, and the last number. -/
def drain : List Event → Nat → List (Event × Nat) × Nat
  | [], sequence => ([], sequence)
  | e :: queue, sequence =>
    let rest := drain queue (sequence + 1)
    ((e, sequence + 1) :: rest.1, rest.2)

/-- `flush`, with the events whose lines it writes. -/
def BackgroundJournal.flush (j : BackgroundJournal) : BackgroundJournal × List (Event × Nat) :=
  let drained := drain j.queue j.sequence
  ({ j with queue := [], sequence := drained.2 }, drained.1)

/-- `json.dumps` encodes every queued record; it raises on an integer that is too long. -/
def BackgroundJournal.encodable (j : BackgroundJournal) : Prop :=
  ∀ p ∈ j.flush.2, (record j.identity p.1 p.2).Valid

instance (j : BackgroundJournal) : Decidable j.encodable := by
  unfold BackgroundJournal.encodable
  infer_instance

/-! ## The reader -/

/-- What `json.loads` makes of a line. -/
inductive Loaded where
  /-- `ValueError`. -/
  | rejected
  /-- No object. -/
  | other
  /-- An object, by its entries with scalar values. -/
  | object (o : Object)

/-- The text of ASCII bytes. -/
def ofAscii (b : Bytes) : Option (List Char) :=
  if b.all (· < 0x80) then some (b.map fun x => Char.ofNat x.toNat) else none

/-- A line that holds a flat object as `json.dumps` writes it. -/
def flatObject (line : Bytes) : Option Object :=
  if line.getLast? = some newline then (ofAscii line.dropLast).bind scanObject else none

/-- `BackgroundEvents`, for one journal. -/
structure BackgroundEvents where
  /-- `self.offsets.get(path)`. -/
  offset : Option Nat
  /-- `self.identities.get(path)`. -/
  identity : Option Object

section Reader

variable (decoder : Bytes → Loaded) (service_id : Str)

/-- `json.loads(line)`. -/
def loads (line : Bytes) : Loaded :=
  match flatObject line with
  | some o => .object o
  | none => decoder line

/-- The record of a line, if it is an object of this service start. -/
def accepted? (line : Bytes) : Option Object :=
  match loads decoder line with
  | .object o => if o.lookup (codes "service_id") = some (.str service_id) then some o else none
  | _ => none

/-- `(int(record["level"]), str(record["message"]))`, for a record whose `level` and `pid` are
integers and whose `message` is a string; any other record raises. -/
def event? (o : Object) : Option (Int × Str) :=
  match o.lookup (codes "level"), o.lookup (codes "message"), o.lookup (codes "pid") with
  | some (.int level), some (.str message), some (.int _) => some (level, message)
  | _, _, _ => none

/-- One complete line; nothing when it raises. -/
def consume (s : BackgroundEvents × List (Int × Str)) (line : Bytes) :
    Option (BackgroundEvents × List (Int × Str)) :=
  let r := { s.1 with offset := some (s.1.offset.getD 0 + line.length) }
  match accepted? decoder service_id line with
  | none => some (r, s.2)
  | some o => (event? o).map fun e => ({ r with identity := some o }, s.2 ++ [e])

/-- `is_live(record)`; `os` tells whether a process with this pid and creation time runs. -/
def is_live (os : Int → Scalar → Bool) (record : Object) : Bool :=
  match record.lookup (codes "pid"), record.lookup (codes "process_create_time") with
  | some (.int pid), some (.int n) => decide (0 < pid) && os pid (.int n)
  | some (.int pid), some (.float x) => decide (0 < pid) && os pid (.float x)
  | _, _ => false

/-- `read`, shown the bytes `visible` of the journal: its result, and whether it unlinks the file.
Nothing when it raises. -/
def read (os : Int → Scalar → Bool) (visible : Bytes) (r : BackgroundEvents) :
    Option (BackgroundEvents × List (Int × Str) × Bool) := do
  let (r, events) ← (lines newline (visible.drop (r.offset.getD 0))).foldlM
    (consume decoder service_id) (r, [])
  match r.identity with
  | some last =>
    if !is_live os last then return (⟨none, none⟩, events, true) else return (r, events, false)
  | none => return (r, events, false)

end Reader

/-! ## Steps -/

/-- A complete line of the file. -/
inductive Line where
  /-- A record of the process. -/
  | own (e : Event) (sequence : Nat)
  | foreign (bytes : Bytes)

/-- The bytes of a line. -/
def Line.bytes (identity : Identity) : Line → Bytes
  | .own e sequence => recordLine identity e sequence
  | .foreign bytes => bytes

/-- The event of a line that the journal has written, and its number. -/
def Line.own? : Line → Option (Event × Nat)
  | .own e sequence => some (e, sequence)
  | .foreign _ => none

/-- The records of the process among some lines. -/
def records (lines : List Line) : List (Event × Nat) := lines.filterMap Line.own?

/-- The writer, the lines of its file, and the reader. -/
structure State where
  journal : BackgroundJournal
  lines : List Line
  reader : BackgroundEvents
  /-- History: the most bytes a call of `read` has been shown. -/
  shown : Nat

/-- The bytes of some lines. -/
def State.bytes (s : State) (lines : List Line) : Bytes :=
  lines.flatMap (Line.bytes s.journal.identity)

/-- The lines whose newline is among the bytes shown so far. -/
def State.complete (s : State) : List Line :=
  fitting (Line.bytes s.journal.identity) s.shown s.lines

/-- The writer emits or flushes, another program writes a line, or the reader reads. -/
inductive Label where
  | emit (e : Event)
  | flush
  | foreign
  /-- A call of `read`, with its result. -/
  | read (events : List (Int × Str))

/-- The event that is emitted. -/
def Label.emitted? : Label → Option Event
  | .emit e => some e
  | _ => none

/-- What a `read` returns. -/
def Label.result? : Label → Option (List (Int × Str))
  | .read events => some events
  | _ => none

section System

variable (decoder : Bytes → Loaded)

/-- A line of somebody else, which is no object of this service start. -/
def Foreign (identity : Identity) (bytes : Bytes) : Prop :=
  IsLine newline bytes ∧ accepted? decoder identity.service_id bytes = none

/-- `os` runs the process of the journal. -/
def Live (identity : Identity) (os : Int → Scalar → Bool) : Prop :=
  os identity.pid (.float identity.process_create_time) = true

/-- The calls of the process and of the controller. Lines of others may come between those that
`flush` writes. -/
inductive Step : State → Label → State → Prop
  | emit (s : State) (e : Event) :
      Step s (.emit e) { s with journal := s.journal.emit e }
  | flush (s : State) (new : List Line) (hok : s.journal.encodable)
      (hnew : records new = s.journal.flush.2)
      (hforeign : ∀ b, Line.foreign b ∈ new → Foreign decoder s.journal.identity b) :
      Step s .flush { s with journal := s.journal.flush.1, lines := s.lines ++ new }
  | foreign (s : State) (b : Bytes) (hforeign : Foreign decoder s.journal.identity b) :
      Step s .foreign { s with lines := s.lines ++ [.foreign b] }
  | read (s : State) (cut : Nat) (os : Int → Scalar → Bool) (reader : BackgroundEvents)
      (events : List (Int × Str)) (removed : Bool) (hlive : Live s.journal.identity os)
      (hcut : cut ≤ (s.bytes s.lines).length)
      (hread : read decoder s.journal.identity.service_id os ((s.bytes s.lines).take cut)
        s.reader = some (reader, events, removed)) :
      Step s (.read events)
        { s with
          lines := if removed then [] else s.lines
          reader := reader
          shown := max s.shown cut }

/-- Nothing is emitted yet, and the file holds lines of others. -/
structure Init (s : State) : Prop where
  queue : s.journal.queue = []
  sequence : s.journal.sequence = 0
  lines : ∀ l ∈ s.lines, ∃ b, l = .foreign b ∧ Foreign decoder s.journal.identity b
  offset : s.reader.offset = none
  identity : s.reader.identity = none
  shown : s.shown = 0

/-! ## One line -/

variable {identity : Identity} {e : Event} {sequence : Nat}

/-- The records of the process are encodable, and the other lines are foreign. -/
def Line.Ok (identity : Identity) : Line → Prop
  | .own e sequence => (record identity e sequence).Valid
  | .foreign b => Foreign decoder identity b

/-- A record after writing and reading. -/
def loaded (identity : Identity) (p : Event × Nat) : Object :=
  (record identity p.1 p.2).map joinPair

/-- What `read` returns for a record. -/
def decoded (p : Event × Nat) : Int × Str := (p.1.level, join p.1.message)

variable {decoder}

theorem record_keys : ((record identity e sequence).map fun f => join f.1).Nodup := by
  have hfields : e.fields.map (fun f => join f.1) = e.fields.map Prod.fst := by
    refine List.map_congr_left fun f hf => ?_
    rcases e.keys f hf with h | h <;> rw [h] <;> decide
  have hsplit : (record identity e sequence).map (fun f => join f.1) =
      [codes "pid", codes "process_create_time", codes "service_id", codes "level",
        codes "message"] ++ (e.fields.map Prod.fst ++ [codes "sequence"]) := by
    rw [← hfields]
    simp only [record, Identity.fields, List.map_append, List.map_cons, List.map_nil]
    rfl
  have hkey : ∀ k ∈ e.fields.map Prod.fst, k = codes "deadline" ∨ k = codes "retired" := by
    intro k hk
    obtain ⟨f, hf, rfl⟩ := List.mem_map.mp hk
    exact e.keys f hf
  rw [hsplit, List.nodup_append]
  refine ⟨by decide, List.nodup_append.mpr ⟨e.nodup, List.nodup_singleton _, ?_⟩, ?_⟩
  · intro k hk k' hk'
    rw [List.mem_singleton.mp hk']
    rcases hkey k hk with rfl | rfl <;> decide
  · intro k hk k' hk'
    rcases List.mem_append.mp hk' with hk' | hk'
    · rcases hkey k' hk' with rfl | rfl <;> revert k <;> decide
    · rw [List.mem_singleton.mp hk']
      revert k
      decide

theorem ofAscii_ascii {text : List Char} (h : ∀ c ∈ text, Lib.Json.Printable c) :
    ofAscii (ascii text) = some text := by
  have hnat : ∀ c ∈ text, (UInt8.ofNat c.toNat).toNat = c.toNat := fun c hc => by
    have := (h c hc).2
    rw [UInt8.toNat_ofNat']
    omega
  have hall : (ascii text).all (· < 0x80) = true := by
    rw [List.all_eq_true]
    intro b hb
    obtain ⟨c, hc, rfl⟩ := List.mem_map.mp hb
    have := (h c hc).2
    have hlt : (UInt8.ofNat c.toNat).toNat < (0x80 : UInt8).toNat := by
      rw [hnat c hc]
      exact Nat.lt_of_le_of_lt this (by decide)
    exact decide_eq_true (UInt8.lt_iff_toNat_lt.mpr hlt)
  unfold ofAscii
  rw [if_pos hall, ascii, List.map_map]
  congr 1
  conv_rhs => rw [← List.map_id text]
  refine List.map_congr_left fun c hc => ?_
  show Char.ofNat (UInt8.ofNat c.toNat).toNat = c
  rw [hnat c hc, Char.ofNat_toNat]

theorem newline_notMem_ascii {text : List Char} (h : ∀ c ∈ text, Lib.Json.Printable c) :
    newline ∉ ascii text := by
  intro hmem
  obtain ⟨c, hc, he⟩ := List.mem_map.mp hmem
  have hrange := h c hc
  have hnat : (UInt8.ofNat c.toNat).toNat = 10 := by rw [he]; rfl
  rw [UInt8.toNat_ofNat'] at hnat
  have hlow := hrange.1
  have hhigh := hrange.2
  omega

/-- **A record is one line.** -/
theorem isLine_recordLine : IsLine newline (recordLine identity e sequence) :=
  ⟨_, rfl, newline_notMem_ascii (Lib.Json.objectText_printable _)⟩

theorem flatObject_recordLine (hv : (record identity e sequence).Valid) :
    flatObject (recordLine identity e sequence) = some (loaded identity (e, sequence)) := by
  unfold flatObject recordLine
  rw [if_pos List.getLast?_concat, List.dropLast_concat,
    ofAscii_ascii (Lib.Json.objectText_printable _), Option.bind_some]
  exact Lib.Json.scanObject_objectText (List.cons_ne_nil _ _) hv record_keys

theorem join_service_id : join identity.service_id = identity.service_id := by
  have hhigh : ∀ c ∈ identity.service_id, Lib.Json.isHigh c = false := fun c hc => by
    have := identity.ascii c hc
    simp only [Lib.Json.isHigh, Bool.and_eq_false_iff, decide_eq_false_iff_not]
    omega
  exact Lib.Json.join_eq_self (List.Pairwise.isChain (List.pairwise_of_forall_mem_list
    fun c hc d _ => by rw [hhigh c hc, Bool.false_and]))

/-- What `read` looks up in a record. -/
theorem loaded_lookup (identity : Identity) (p : Event × Nat) :
    (loaded identity p).lookup (codes "service_id") = some (.str identity.service_id) ∧
      (loaded identity p).lookup (codes "pid") = some (.int identity.pid) ∧
      (loaded identity p).lookup (codes "process_create_time") =
        some (.float identity.process_create_time) ∧
      (loaded identity p).lookup (codes "level") = some (.int p.1.level) ∧
      (loaded identity p).lookup (codes "message") = some (.str (join p.1.message)) := by
  have hid : (loaded identity p).lookup (codes "service_id") =
      some (.str (join identity.service_id)) := rfl
  rw [join_service_id] at hid
  exact ⟨hid, rfl, rfl, rfl, rfl⟩

theorem accepted_recordLine (hv : (record identity e sequence).Valid) :
    accepted? decoder identity.service_id (recordLine identity e sequence) =
      some (loaded identity (e, sequence)) := by
  unfold accepted? loads
  rw [flatObject_recordLine hv]
  exact if_pos (loaded_lookup _ _).1

theorem event_loaded (p : Event × Nat) : event? (loaded identity p) = some (decoded p) := by
  obtain ⟨-, hpid, -, hlevel, hmessage⟩ := loaded_lookup identity p
  unfold event?
  rw [hlevel, hmessage, hpid]
  rfl

theorem is_live_loaded {os : Int → Scalar → Bool} (h : Live identity os) (p : Event × Nat) :
    is_live os (loaded identity p) = true := by
  obtain ⟨-, hpid, hcreated, -⟩ := loaded_lookup identity p
  unfold is_live
  rw [hpid, hcreated]
  exact Bool.and_eq_true_iff.mpr ⟨decide_eq_true identity.pid_pos, h⟩

theorem Line.Ok.isLine {l : Line} (h : l.Ok decoder identity) :
    IsLine newline (l.bytes identity) := by
  cases l with
  | own e sequence => exact isLine_recordLine
  | foreign b => exact h.1

/-! ## One call of `read` -/

/-- The reader behind some more lines. -/
def BackgroundEvents.behind (identity : Identity) (r : BackgroundEvents) (lines : List Line) :
    BackgroundEvents where
  offset := if lines = [] then r.offset else
    some (r.offset.getD 0 + (lines.flatMap (Line.bytes identity)).length)
  identity := ((records lines).getLast?.map (loaded identity)).or r.identity

@[simp] theorem records_append (ls ms : List Line) :
    records (ls ++ ms) = records ls ++ records ms := List.filterMap_append

theorem records_cons (l : Line) (ls : List Line) : records (l :: ls) = records [l] ++ records ls :=
  records_append [l] ls

/-- One line is passed, and its record returned. -/
theorem consume_line {l : Line} (h : l.Ok decoder identity) (r : BackgroundEvents)
    (events : List (Int × Str)) :
    consume decoder identity.service_id (r, events) (l.bytes identity) =
      some (r.behind identity [l], events ++ (records [l]).map decoded) := by
  cases l with
  | own e sequence =>
    unfold consume Line.bytes
    rw [accepted_recordLine h]
    simp [event_loaded, BackgroundEvents.behind, records, Line.own?, Line.bytes]
  | foreign b =>
    unfold consume Line.bytes
    rw [h.2]
    simp [BackgroundEvents.behind, records, Line.own?, Line.bytes]

theorem behind_cons (r : BackgroundEvents) (l : Line) (ls : List Line) :
    (r.behind identity [l]).behind identity ls = r.behind identity (l :: ls) := by
  have hlast : ((records ls).getLast?.map (loaded identity)).or
      (((records [l]).getLast?.map (loaded identity)).or r.identity) =
        ((records (l :: ls)).getLast?.map (loaded identity)).or r.identity := by
    rw [records_cons l ls, List.getLast?_append, Option.map_or, Option.or_assoc]
  unfold BackgroundEvents.behind
  rw [hlast]
  cases ls with
  | nil => simp
  | cons m ls => simp [Nat.add_assoc]

/-- **The loop of `read`** returns the records of the lines it passes. -/
theorem foldlM_consume {ls : List Line} (h : ∀ l ∈ ls, l.Ok decoder identity)
    (r : BackgroundEvents) (events : List (Int × Str)) :
    (ls.map (Line.bytes identity)).foldlM (consume decoder identity.service_id) (r, events) =
      some (r.behind identity ls, events ++ (records ls).map decoded) := by
  induction ls generalizing r events with
  | nil => simp [BackgroundEvents.behind, records]
  | cons l ls ih =>
    obtain ⟨hl, hls⟩ := List.forall_mem_cons.mp h
    rw [List.map_cons, List.foldlM_cons, consume_line hl, Option.bind_eq_bind, Option.bind_some,
      ih hls, behind_cons, records_cons l ls, List.map_append, List.append_assoc]

/-! ## Invariants -/

theorem drain_events (queue : List Event) (n : Nat) : (drain queue n).1.map Prod.fst = queue := by
  induction queue generalizing n with
  | nil => rfl
  | cons e queue ih => rw [drain, List.map_cons, ih]

theorem drain_numbers (queue : List Event) (n : Nat) :
    (drain queue n).1.map Prod.snd = List.range' (n + 1) queue.length ∧
      (drain queue n).2 = n + queue.length := by
  induction queue generalizing n with
  | nil => exact ⟨rfl, rfl⟩
  | cons e queue ih =>
    obtain ⟨hnumbers, hlast⟩ := ih (n + 1)
    constructor
    · rw [drain, List.map_cons, hnumbers, List.length_cons, List.range'_succ]
    · rw [drain, hlast, List.length_cons]
      omega

variable (decoder) in
/-- What every step keeps. -/
structure Inv (s : State) : Prop where
  ok : ∀ l ∈ s.lines, l.Ok decoder s.journal.identity
  numbered : (records s.lines).map Prod.snd = List.range' 1 s.journal.sequence
  offset : s.reader.offset.getD 0 = (s.bytes s.complete).length
  known : ∀ o, s.reader.identity = some o → ∃ p, o = loaded s.journal.identity p
  shown : s.shown ≤ (s.bytes s.lines).length

variable {s t : State} {a : Label}

theorem behind_known {r : BackgroundEvents} (ls : List Line)
    (h : ∀ o, r.identity = some o → ∃ p, o = loaded identity p) :
    ∀ o, (r.behind identity ls).identity = some o → ∃ p, o = loaded identity p := by
  intro o ho
  rcases Option.or_eq_some_iff.mp ho with ho | ⟨-, ho⟩
  · obtain ⟨p, -, hp⟩ := Option.map_eq_some_iff.mp ho
    exact ⟨p, hp.symm⟩
  · exact h o ho

theorem behind_offset (r : BackgroundEvents) (ls : List Line) :
    (r.behind identity ls).offset.getD 0 =
      r.offset.getD 0 + (ls.flatMap (Line.bytes identity)).length := by
  unfold BackgroundEvents.behind
  split
  · rename_i hnil
    rw [hnil]
    rfl
  · rfl

/-- **One call of `read`**, whatever part of the file it is shown. -/
theorem Inv.read_returns (h : Inv decoder s) {os : Int → Scalar → Bool}
    (hlive : Live s.journal.identity os) (cut : Nat) :
    ∃ rest, fitting (Line.bytes s.journal.identity) (max s.shown cut) s.lines =
        s.complete ++ rest ∧
      read decoder s.journal.identity.service_id os ((s.bytes s.lines).take cut) s.reader =
        some (s.reader.behind s.journal.identity rest, (records rest).map decoded, false) := by
  obtain ⟨rest, hrest, hlines⟩ := Lib.Lines.lines_resume
    (fun l hl => (h.ok l hl).isLine) s.shown cut
  refine ⟨rest, hrest, ?_⟩
  have hok : ∀ l ∈ rest, l.Ok decoder s.journal.identity := by
    obtain ⟨behind, hbehind, -⟩ :=
      Lib.Lines.fitting_prefix (Line.bytes s.journal.identity) (max s.shown cut) s.lines
    intro l hl
    refine h.ok l ?_
    rw [hbehind, hrest]
    exact List.mem_append_left _ (List.mem_append_right _ hl)
  have hloop := foldlM_consume hok s.reader []
  rw [← hlines] at hloop
  unfold read
  rw [h.offset]
  simp only [State.bytes, State.complete, hloop, Option.bind_eq_bind, Option.bind_some,
    List.nil_append]
  cases hlast : (s.reader.behind s.journal.identity rest).identity with
  | none => rfl
  | some o =>
    obtain ⟨p, rfl⟩ := behind_known rest h.known o hlast
    simp only [is_live_loaded hlive]
    rfl

/-- What a call of `read` has done. -/
theorem Inv.read_eq (h : Inv decoder s) {os : Int → Scalar → Bool}
    (hlive : Live s.journal.identity os) {cut : Nat} {reader : BackgroundEvents}
    {events : List (Int × Str)} {removed : Bool}
    (hread : read decoder s.journal.identity.service_id os ((s.bytes s.lines).take cut) s.reader =
      some (reader, events, removed)) :
    ∃ rest, fitting (Line.bytes s.journal.identity) (max s.shown cut) s.lines =
        s.complete ++ rest ∧
      reader = s.reader.behind s.journal.identity rest ∧ events = (records rest).map decoded ∧
        removed = false := by
  obtain ⟨rest, hrest, hreturn⟩ := h.read_returns hlive cut
  exact ⟨rest, hrest, by simpa using hread.symm.trans hreturn⟩

/-- Lines behind the end of the file have not been shown. -/
theorem Inv.fitting_append (h : Inv decoder s) {new : List Line}
    (hnew : ∀ l ∈ new, l.Ok decoder s.journal.identity) :
    fitting (Line.bytes s.journal.identity) s.shown (s.lines ++ new) = s.complete :=
  Lib.Lines.fitting_append_of_le h.shown fun l hl => (hnew l hl).isLine.ne_nil

/-- The lines that `flush` writes, and those of others between them. -/
theorem flush_ok {new : List Line} (hok : s.journal.encodable)
    (hnew : records new = s.journal.flush.2)
    (hforeign : ∀ b, Line.foreign b ∈ new → Foreign decoder s.journal.identity b) :
    ∀ l ∈ new, l.Ok decoder s.journal.identity := by
  intro l hl
  cases l with
  | own e n =>
    have hmem : (e, n) ∈ records new := List.mem_filterMap.mpr ⟨.own e n, hl, rfl⟩
    rw [hnew] at hmem
    exact hok _ hmem
  | foreign b => exact hforeign b hl

theorem Inv.append (h : Inv decoder s) {j : BackgroundJournal} {new : List Line}
    (hid : j.identity = s.journal.identity)
    (hnew : ∀ l ∈ new, l.Ok decoder s.journal.identity)
    (hnumbers : (records s.lines).map Prod.snd ++ (records new).map Prod.snd =
      List.range' 1 j.sequence) :
    Inv decoder { s with journal := j, lines := s.lines ++ new } where
  ok := by
    intro l hl
    show l.Ok decoder j.identity
    rw [hid]
    exact (List.mem_append.mp hl).elim (h.ok l) (hnew l)
  numbered := by
    rw [records_append, List.map_append]
    exact hnumbers
  offset := by
    simp only [State.bytes, State.complete, hid]
    rw [h.fitting_append hnew]
    exact h.offset
  known := by
    simp only [hid]
    exact h.known
  shown := by
    simp only [State.bytes, hid, List.flatMap_append, List.length_append]
    exact Nat.le_add_right_of_le h.shown

theorem Inv.step (h : Inv decoder s) (hs : Step decoder s a t) : Inv decoder t := by
  cases hs with
  | emit e => exact ⟨h.ok, h.numbered, h.offset, h.known, h.shown⟩
  | flush new hok hnew hforeign =>
    refine h.append rfl (flush_ok hok hnew hforeign) ?_
    obtain ⟨hnumbers, hlast⟩ := drain_numbers s.journal.queue s.journal.sequence
    have hsequence : s.journal.flush.1.sequence =
        s.journal.sequence + s.journal.queue.length := hlast
    have hwritten : s.journal.flush.2.map Prod.snd =
        List.range' (s.journal.sequence + 1) s.journal.queue.length := hnumbers
    rw [h.numbered, hnew, hwritten, hsequence, Nat.add_comm s.journal.sequence 1]
    exact List.range'_append_1
  | foreign b hforeign =>
    refine h.append rfl (List.forall_mem_singleton.mpr hforeign) ?_
    show _ ++ [] = _
    rw [List.append_nil]
    exact h.numbered
  | read cut os reader events removed hlive hcut hread =>
    obtain ⟨rest, hrest, rfl, rfl, rfl⟩ := h.read_eq hlive hread
    refine ⟨h.ok, h.numbered, ?_, behind_known rest h.known, Nat.max_le.mpr ⟨h.shown, hcut⟩⟩
    show _ = (List.flatMap _ (fitting _ (max s.shown cut) s.lines)).length
    rw [hrest, List.flatMap_append, List.length_append, behind_offset, h.offset]
    rfl

theorem Init.records_eq (h : Init decoder s) : records s.lines = [] :=
  List.filterMap_eq_nil_iff.mpr fun l hl => by
    obtain ⟨b, rfl, -⟩ := h.lines l hl
    rfl

theorem Init.complete_eq (h : Init decoder s) : s.complete = [] := by
  unfold State.complete
  rw [h.shown]
  refine Lib.Lines.fitting_zero fun l hl => ?_
  obtain ⟨b, rfl, hb⟩ := h.lines l hl
  exact hb.1.ne_nil

theorem Init.inv (h : Init decoder s) : Inv decoder s where
  ok := by
    intro l hl
    obtain ⟨b, rfl, hb⟩ := h.lines l hl
    exact hb
  numbered := by
    rw [h.records_eq, h.sequence]
    rfl
  offset := by
    rw [h.offset, h.complete_eq]
    rfl
  known := by simp [h.identity]
  shown := by simp [h.shown]

/-- What a step returns is what it shows. -/
theorem Inv.returned_step (h : Inv decoder s) (hs : Step decoder s a t) :
    (records t.complete).map decoded =
      (records s.complete).map decoded ++ a.result?.toList.flatten := by
  cases hs with
  | emit e => exact (List.append_nil _).symm
  | flush new hok hnew hforeign =>
    rw [← h.fitting_append (flush_ok hok hnew hforeign)]
    exact (List.append_nil _).symm
  | foreign b hforeign =>
    have hok : ∀ l ∈ [Line.foreign b], l.Ok decoder s.journal.identity :=
      List.forall_mem_singleton.mpr hforeign
    rw [← h.fitting_append hok]
    exact (List.append_nil _).symm
  | read cut os reader events removed hlive hcut hread =>
    obtain ⟨rest, hrest, rfl, rfl, rfl⟩ := h.read_eq hlive hread
    show (records (fitting _ (max s.shown cut) s.lines)).map decoded = _ ++ [_].flatten
    rw [hrest, records_append, List.map_append, List.flatten_singleton]

/-- What is emitted is queued, and then written. -/
theorem Inv.written_step (h : Inv decoder s) (hs : Step decoder s a t) :
    (records t.lines).map Prod.fst ++ t.journal.queue =
      (records s.lines).map Prod.fst ++ s.journal.queue ++ a.emitted?.toList := by
  cases hs with
  | emit e => exact (List.append_assoc _ _ _).symm
  | flush new hok hnew hforeign =>
    have hwritten : s.journal.flush.2.map Prod.fst = s.journal.queue := drain_events _ _
    show (records (s.lines ++ new)).map Prod.fst ++ [] = _ ++ []
    rw [records_append, List.map_append, hnew, hwritten]
  | foreign b hforeign =>
    have hnone : records [Line.foreign b] = [] := rfl
    show (records (s.lines ++ [.foreign b])).map Prod.fst ++ s.journal.queue = _ ++ []
    rw [records_append, hnone, List.append_nil, List.append_nil]
  | read cut os reader events removed hlive hcut hread =>
    obtain ⟨-, -, -, -, rfl⟩ := h.read_eq hlive hread
    exact (List.append_nil _).symm

/-! ## Runs -/

variable (r : Run (Step decoder))

/-- **The journal under partial visibility.** The calls of `read` have returned the records whose
newline has been shown, in order and once; the offset is the end of a line; the records in the
file are the events in the order of `emit`, numbered from 1; and no call of `read` raises or
removes the file, whatever part of it is shown. -/
theorem journal_decoded (h0 : Init decoder (r.state 0)) {i : Nat} (hi : i ≤ r.length) :
    (r.trace Label.result? i).flatten =
        (records (r.state i).complete).map (fun p => (p.1.level, join p.1.message)) ∧
      (∃ before, before <+: (r.state i).lines ∧
        (r.state i).reader.offset.getD 0 = ((r.state i).bytes before).length) ∧
      (records (r.state i).lines).map Prod.fst ++ (r.state i).journal.queue =
        r.trace Label.emitted? i ∧
      (records (r.state i).lines).map Prod.snd =
        List.range' 1 (records (r.state i).lines).length ∧
      ∀ os cut, Live (r.state i).journal.identity os → ∃ reader events,
        read decoder (r.state i).journal.identity.service_id os
          (((r.state i).bytes (r.state i).lines).take cut) (r.state i).reader =
            some (reader, events, false) := by
  have hinv : ∀ k, k ≤ r.length → Inv decoder (r.state k) :=
    r.invariant h0.inv fun _ _ _ hs h => h.step hs
  have hreturned : (r.trace Label.result? i).flatten = (records (r.state i).complete).map decoded :=
    r.trace_invariant (P := fun s h => h.flatten = (records s.complete).map decoded)
      (C := fun s _ => Inv decoder s) (by rw [h0.complete_eq]; rfl) (fun k hk => hinv k hk.le)
      (fun s a t h hs hi ih => by rw [List.flatten_append, ih, hi.returned_step hs]) i hi
  have hwritten : (records (r.state i).lines).map Prod.fst ++ (r.state i).journal.queue =
      r.trace Label.emitted? i :=
    r.trace_invariant
      (P := fun s h => (records s.lines).map Prod.fst ++ s.journal.queue = h)
      (C := fun s _ => Inv decoder s) (by rw [h0.records_eq, h0.queue]; rfl)
      (fun k hk => hinv k hk.le) (fun s a t h hs hi ih => by rw [hi.written_step hs, ih]) i hi
  have hi := hinv i hi
  have hcount : (records (r.state i).lines).length = (r.state i).journal.sequence := by
    have hlength := congrArg List.length hi.numbered
    rwa [List.length_map, List.length_range'] at hlength
  obtain ⟨rest, hprefix, -⟩ := Lib.Lines.fitting_prefix
    (Line.bytes (r.state i).journal.identity) (r.state i).shown (r.state i).lines
  refine ⟨hreturned, ⟨(r.state i).complete, ⟨rest, hprefix.symm⟩, hi.offset⟩, hwritten,
    hcount ▸ hi.numbered, fun os cut hlive => ?_⟩
  obtain ⟨_, -, hreturn⟩ := hi.read_returns hlive cut
  exact ⟨_, _, hreturn⟩

end System

/-! ## A message with a pair of surrogates -/

namespace Surrogates

/-- `json.loads` on lines that are no flat objects. -/
def decoder (_ : Bytes) : Loaded := .rejected

/-- A process of the service. -/
def process : Identity where
  pid := 7
  process_create_time := ⟨['1', '.', '5'], by decide⟩
  service_id := codes "0123456789abcdef"
  pid_pos := by decide
  ascii := by decide

/-- A line that `json.loads` rejects. -/
def broken : Bytes := ascii "broken json".toList ++ [newline]

theorem broken_foreign : Foreign decoder process broken :=
  ⟨⟨_, rfl, by decide⟩, rfl⟩

/-- A file that holds a broken line. -/
def start : State where
  journal := ⟨process, [], 0⟩
  lines := [.foreign broken]
  reader := ⟨none, none⟩
  shown := 0

theorem start_init : Init decoder start where
  queue := rfl
  sequence := rfl
  lines _ hl := ⟨broken, List.mem_singleton.mp hl, broken_foreign⟩
  offset := rfl
  identity := rfl
  shown := rfl

/-- A message that holds the two surrogates of a character as two code points. -/
def pair : Event where
  level := 20
  message := [0xD83D, 0xDE00]
  fields := [(codes "retired", .bool true)]
  keys := by decide
  nodup := by decide

/-- An event with a surrogate pair is in the queue. -/
def emitted : State := { start with journal := start.journal.emit pair }

/-- It has been flushed. -/
def written : State :=
  { emitted with
    journal := emitted.journal.flush.1
    lines := [.foreign broken, .own pair 1] }

theorem emit_step : Step decoder start (.emit pair) emitted := .emit start pair

theorem flush_step : Step decoder emitted .flush written :=
  .flush emitted [.own pair 1] (by decide) rfl fun b hb => by simp at hb

/-- `read`, shown the whole file, returns the character. -/
theorem read_step : ∃ t, Step decoder written (.read [(20, [0x1F600])]) t ∧
    records t.complete = [(pair, 1)] := by
  have hinv : Inv decoder written := (start_init.inv.step emit_step).step flush_step
  obtain ⟨n, hn⟩ : ∃ n, n = (written.bytes written.lines).length := ⟨_, rfl⟩
  have hlive : Live process fun _ _ => true := rfl
  obtain ⟨rest, hrest, hread⟩ := hinv.read_returns hlive n
  have hall : fitting (Line.bytes process) n written.lines = written.lines := by
    have hfit : fitting (Line.bytes process) n (written.lines ++ []) = written.lines ++ [] :=
      Lib.Lines.fitting_append (Nat.le_of_eq hn.symm)
    rwa [List.append_nil] at hfit
  have hnone : written.complete = [] :=
    Lib.Lines.fitting_zero fun l hl => (hinv.ok l hl).isLine.ne_nil
  have hmax : max written.shown n = n := Nat.zero_max n
  rw [hmax, hnone, List.nil_append] at hrest
  obtain rfl : written.lines = rest := hall.symm.trans hrest
  refine ⟨_, .read written n _ _ _ _ hlive (Nat.le_of_eq hn) hread, ?_⟩
  show records (fitting (Line.bytes process) (max written.shown n) written.lines) = _
  rw [hmax, hall]
  rfl

/-- A run that emits the message, writes it and reads it. -/
theorem run : ∃ r : Run (Step decoder), Init decoder (r.state 0) ∧ r.length = 3 ∧
    r.trace Label.result? 3 = [[(20, [0x1F600])]] ∧ records (r.state 3).complete = [(pair, 1)] := by
  obtain ⟨t, hread, hcomplete⟩ := read_step
  let r := Run.start (Step decoder) start .flush
  let r := r.snoc emit_step
  let r := r.snoc flush_step
  let r := r.snoc hread
  exact ⟨r, start_init, rfl, rfl, hcomplete⟩

theorem journal_decoded_pair : ∃ r : Run (Step decoder), Init decoder (r.state 0) ∧ r.length = 3 ∧
    (r.trace Label.result? 3).flatten =
      (records (r.state 3).complete).map (fun p => (p.1.level, join p.1.message)) ∧
    (records (r.state 3).lines).map Prod.snd =
      List.range' 1 (records (r.state 3).lines).length := by
  obtain ⟨r, h0, hlength, -⟩ := run
  obtain ⟨hreturned, -, -, hnumbered, -⟩ := journal_decoded r h0 hlength.ge
  exact ⟨r, h0, hlength, hreturned, hnumbered⟩

/-- The message comes back as one code point. -/
theorem pair_not_returned : ¬ ∀ (decoder : Bytes → Loaded) (r : Run (Step decoder)),
    Init decoder (r.state 0) → ∀ i, i ≤ r.length →
      (r.trace Label.result? i).flatten =
        (records (r.state i).complete).map fun p => (p.1.level, p.1.message) := by
  intro h
  obtain ⟨r, h0, hlength, hresult, hrecords⟩ := run
  have heq := h decoder r h0 3 hlength.ge
  rw [hresult, hrecords] at heq
  revert heq
  decide

end Surrogates

end LclFastapi.Background.JournalText
