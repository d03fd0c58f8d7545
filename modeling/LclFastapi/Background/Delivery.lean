import LclFastapi.Background.Journal

/-!
# Delivery of a writer's journal

The records of a writer are, in order, those returned by finished calls of `read`, those the
running call has collected, and those still unread in the file (`Inv.ledger`). `read` looks for the
end of the file before it looks at the process, so a record appended in between and followed by the
writer's death is unlinked unread (`final_record_lost`). The journal is delivered in every run in
which that does not happen and no `read` raises with collected records (`Clean`).
-/

namespace LclFastapi.Background.Journal

open Lib (Dict Identity Processes Reachable)
open LclFastapi.Runtime (Value)

variable {sid : Value} {w : Identity} {s s' : State} {l : Label} {pc : PC}

/-! ## The records of the writer -/

/-- The records among some events that come from the writer's journal. -/
def ofWriter (w : Identity) (events : List Event) : List JournalRecord :=
  events.filterMap fun e => if e.1 = path w then some e.2 else none

@[simp] theorem ofWriter_nil : ofWriter w [] = [] := rfl

@[simp] theorem ofWriter_append (e e' : List Event) :
    ofWriter w (e ++ e') = ofWriter w e ++ ofWriter w e' := List.filterMap_append

/-- Returned by finished calls of `read`. -/
def delivered (w : Identity) (s : State) : List JournalRecord := ofWriter w s.returns.flatten

/-- Collected by the running call. -/
def pending (w : Identity) (s : State) : List JournalRecord := ofWriter w s.pc.events

/-- Complete in the file, and not read. -/
def unread (sid : Value) (w : Identity) (s : State) : List JournalRecord :=
  match s.files (path w) with
  | some lines => accepted sid (lines.drop (s.offset (path w)))
  | none => []

/-- What the journal owes the writer. -/
structure Delivered (sid : Value) (w : Identity) (s : State) : Prop where
  /-- Each record is returned at most once, in write order. -/
  order : delivered w s ++ pending w s <+: s.written
  /-- A record is read before its file is removed. -/
  removed : s.files (path w) = none → delivered w s ++ pending w s = s.written
  /-- After the writer's death, two more calls of `read` return every record. -/
  settled : s.os.live w = false → 2 ≤ s.completed → delivered w s = s.written

/-- The condition on a step: no record is unread when the writer is found dead, and none has been
collected when `read` raises. -/
def Clean (sid : Value) (w : Identity) (s : State) : Label → Prop
  | .dead p => p = path w → unread sid w s = []
  | .raise => pending w s = []
  | _ => True

/-! ## The invariant -/

/-- `read` has gone past the writer's journal. -/
def PC.Past (w : Identity) : PC → Prop
  | .idle => False
  | .next todo _ | .check _ todo _ | .unlink _ todo _ => path w ∉ todo
  | .readline p todo _ => p ≠ path w ∧ path w ∉ todo

structure Inv (sid : Value) (w : Identity) (s : State) : Prop where
  ledger : s.written = delivered w s ++ pending w s ++ unread sid w s
  offset_le : ∀ lines, s.files (path w) = some lines → s.offset (path w) ≤ lines.length
  absent : s.files (path w) = none → s.offsets (path w) = none
  own : ∀ lines, s.files (path w) = some lines → ∀ r ∈ accepted sid lines, r.identity = w
  last : ∀ r, s.identities (path w) = some r → r.identity = w
  seen : w ∈ s.os.seen
  alive : s.os.live w = true → s.completed = 0
  unlinking : ∀ todo events, s.pc = .unlink (path w) todo events →
    s.os.live w = false ∧ unread sid w s = []
  past : 1 ≤ s.completed → s.pc.Past w → unread sid w s = []
  settled : 2 ≤ s.completed → unread sid w s = [] ∧ pending w s = []

theorem Inv.delivered (hi : Inv sid w s) : Delivered sid w s where
  order := ⟨unread sid w s, hi.ledger.symm⟩
  removed h := by
    have hu : unread sid w s = [] := by simp [unread, h]
    rw [hi.ledger, hu, List.append_nil]
  settled _ hc := by
    obtain ⟨hu, hp⟩ := hi.settled hc
    rw [hi.ledger, hu, hp, List.append_nil, List.append_nil]

theorem Inv.init (h : Init sid w s) : Inv sid w s := by
  have hoff : s.offset (path w) = 0 := by simp [State.offset, h.offsets]
  have hunread : unread sid w s = [] := by
    unfold unread
    split
    · rename_i lines hf
      rw [hoff, List.drop_zero]
      exact h.files lines hf
    · rfl
  constructor
  case ledger => simp [h.written, Journal.delivered, pending, h.returns, h.pc, PC.events, hunread]
  case offset_le => exact fun lines _ => hoff ▸ Nat.zero_le _
  case absent => exact fun _ => h.offsets
  case own =>
    intro lines hf r hr
    rw [h.files lines hf] at hr
    exact absurd hr (by simp)
  case last => exact fun r hr => by simp [h.identities] at hr
  case seen => exact Processes.seen_of_live h.live
  case alive => exact fun _ => h.completed
  case unlinking => exact fun _ _ hpc => by simp [h.pc] at hpc
  case past => exact fun hc => by simp [h.completed] at hc
  case settled => exact fun hc => by simp [h.completed] at hc

/-! ## Steps -/

/-- A step of `read` that only moves on. -/
theorem Inv.move (hi : Inv sid w s) (hev : ofWriter w pc.events = ofWriter w s.pc.events)
    (hunlink : ∀ todo events, pc = .unlink (path w) todo events →
      s.os.live w = false ∧ unread sid w s = [])
    (hpast : 1 ≤ s.completed → pc.Past w → s.pc.Past w ∨ unread sid w s = []) :
    Inv sid w { s with pc := pc } where
  ledger := by
    show s.written = Journal.delivered w s ++ ofWriter w pc.events ++ unread sid w s
    rw [hev]
    exact hi.ledger
  offset_le := hi.offset_le
  absent := hi.absent
  own := hi.own
  last := hi.last
  seen := hi.seen
  alive := hi.alive
  unlinking := hunlink
  past hc hp := by
    rcases hpast hc hp with h | h
    · exact hi.past hc h
    · exact h
  settled hc := ⟨(hi.settled hc).1, hev.trans (hi.settled hc).2⟩

/-- A step of the environment that leaves the writer's file and its life alone. -/
theorem Inv.frame {files : String → Option (List Line)} {os : Processes} (hi : Inv sid w s)
    (hfile : files (path w) = s.files (path w)) (hseen : w ∈ os.seen)
    (hdead : s.os.live w = false → os.live w = false) :
    Inv sid w { s with files := files, os := os } := by
  have hunread : unread sid w { s with files := files, os := os } = unread sid w s := by
    simp only [unread, hfile, State.offset]
  constructor
  case ledger => exact hunread ▸ hi.ledger
  case offset_le => exact fun lines h => hi.offset_le lines (hfile ▸ h)
  case absent => exact fun h => hi.absent (hfile ▸ h)
  case own => exact fun lines h => hi.own lines (hfile ▸ h)
  case last => exact hi.last
  case seen => exact hseen
  case alive =>
    intro h
    cases hl : s.os.live w with
    | true => exact hi.alive hl
    | false => exact absurd (hdead hl) (by simp [h])
  case unlinking =>
    intro todo events h
    obtain ⟨hl, hu⟩ := hi.unlinking todo events h
    exact ⟨hdead hl, hunread.trans hu⟩
  case past => exact fun hc h => hunread.trans (hi.past hc h)
  case settled => exact fun hc => ⟨hunread.trans (hi.settled hc).1, (hi.settled hc).2⟩

/-- The live writer leaves its file with more lines. -/
theorem Inv.grow (hi : Inv sid w s) (hl : s.os.live w = true) (more : List Line)
    (hown : ∀ r ∈ accepted sid more, r.identity = w) :
    Inv sid w { s with
      files := Function.update s.files (path w) (some ((s.files (path w)).getD [] ++ more))
      written := s.written ++ accepted sid more } := by
  have hzero := hi.alive hl
  generalize hnew : (s.files (path w)).getD [] ++ more = new
  have hoff : s.offset (path w) ≤ ((s.files (path w)).getD []).length := by
    cases hf : s.files (path w) with
    | some lines => exact hi.offset_le lines hf
    | none => simp [State.offset, hi.absent hf]
  have hunread : accepted sid (new.drop (s.offset (path w))) =
      unread sid w s ++ accepted sid more := by
    rw [← hnew, List.drop_append_of_le_length hoff, accepted_append]
    congr 1
    unfold unread
    cases hf : s.files (path w) with
    | some lines => rfl
    | none => simp [accepted]
  constructor
  case ledger =>
    show s.written ++ _ = _ ++ _ ++ unread sid w _
    simp only [unread, Function.update_self, State.offset] at hunread ⊢
    rw [hunread, ← List.append_assoc]
    exact congrArg (· ++ _) hi.ledger
  case offset_le =>
    intro lines h
    have : new = lines := by simpa using h
    rw [← this, ← hnew, List.length_append]
    exact Nat.le_add_right_of_le hoff
  case absent => exact fun h => by simp at h
  case own =>
    intro lines h r hr
    have : new = lines := by simpa using h
    rw [← this, ← hnew, accepted_append, List.mem_append] at hr
    rcases hr with hr | hr
    · cases hf : s.files (path w) with
      | some old => exact hi.own old hf r (by simpa [hf] using hr)
      | none => simp [hf, accepted] at hr
    · exact hown r hr
  case last => exact hi.last
  case seen => exact hi.seen
  case alive => exact hi.alive
  case unlinking => exact fun todo events h => by simp [(hi.unlinking todo events h).1] at hl
  case past => exact fun hc => by simp [hzero] at hc
  case settled => exact fun hc => by simp [hzero] at hc

/-- `readline` returns a complete line of the writer's journal. -/
theorem Inv.readline {lines : List Line} {line : Line} {todo : List String} {events : List Event}
    (hi : Inv sid w s) (hpc : s.pc = .readline (path w) todo events)
    (hfile : s.files (path w) = some lines) (hline : lines[s.offset (path w)]? = some line)
    (identities : String → Option JournalRecord) (table : Dict Nat JournalRecord)
    (hids : ∀ r, identities (path w) = some r → r.identity = w)
    (more : List Event) (hmore : ofWriter w more = accepted sid [line]) :
    Inv sid w { s with
      offsets := Function.update s.offsets (path w) (some (s.offset (path w) + 1))
      identities := identities, stopping := table
      pc := .readline (path w) todo (events ++ more) } := by
  have hlt : s.offset (path w) < lines.length := (List.getElem?_eq_some_iff.mp hline).1
  have hdrop : unread sid w s =
      accepted sid [line] ++ accepted sid (lines.drop (s.offset (path w) + 1)) := by
    unfold unread
    rw [hfile, ← accepted_append]
    show accepted sid (lines.drop (s.offset (path w))) = _
    rw [List.drop_eq_getElem_cons hlt, (List.getElem?_eq_some_iff.mp hline).2]
    rfl
  have hpend : pending w s = ofWriter w events := by rw [pending, hpc]; rfl
  constructor
  case ledger =>
    have hl := hi.ledger
    rw [hdrop, hpend] at hl
    simp only [unread, hfile, State.offset, Function.update_self, pending, PC.events,
      ofWriter_append, hmore]
    rw [hl]
    simp [Journal.delivered, State.offset]
  case offset_le =>
    intro lines' h
    have : lines = lines' := by simpa [hfile] using h
    simpa [State.offset, ← this] using hlt
  case absent => exact fun h => by simp [hfile] at h
  case own => exact hi.own
  case last => exact hids
  case seen => exact hi.seen
  case alive => exact hi.alive
  case unlinking => exact fun _ _ h => by simp at h
  case past => exact fun _ h => absurd rfl h.1
  case settled =>
    intro hc
    obtain ⟨hu, hp⟩ := hi.settled hc
    rw [hdrop, List.append_eq_nil_iff] at hu
    refine ⟨?_, ?_⟩
    · simpa [unread, hfile, State.offset] using hu.2
    · rw [hpend] at hp
      simp [pending, PC.events, hp, hmore, hu.1]

/-- `readline` in another journal. -/
theorem Inv.readlineOther {p : String} {todo : List String} {events more : List Event} {n : Nat}
    (hi : Inv sid w s) (hp : p ≠ path w) (hpc : s.pc = .readline p todo events)
    (identities : String → Option JournalRecord) (table : Dict Nat JournalRecord)
    (hids : identities (path w) = s.identities (path w)) (hmore : ofWriter w more = []) :
    Inv sid w { s with
      offsets := Function.update s.offsets p (some n), identities := identities, stopping := table
      pc := .readline p todo (events ++ more) } := by
  have hoff : ∀ m, (Function.update s.offsets p m) (path w) = s.offsets (path w) :=
    fun m => Function.update_of_ne (Ne.symm hp) m s.offsets
  have hpend : ofWriter w (events ++ more) = pending w s := by
    rw [ofWriter_append, hmore, List.append_nil, pending, hpc]
    rfl
  have hpast := hi.past
  rw [hpc] at hpast
  constructor
  case ledger =>
    simp only [unread, State.offset, hoff, pending, PC.events]
    rw [hpend]
    exact hi.ledger
  case offset_le => simpa only [State.offset, hoff] using hi.offset_le
  case absent => exact fun h => (hoff _).trans (hi.absent h)
  case own => exact hi.own
  case last => exact fun r h => hi.last r (hids ▸ h)
  case seen => exact hi.seen
  case alive => exact hi.alive
  case unlinking => exact fun _ _ h => by simp at h
  case past =>
    simp only [unread, State.offset, hoff]
    exact hpast
  case settled =>
    intro hc
    obtain ⟨hu, hpnil⟩ := hi.settled hc
    refine ⟨?_, hpend.trans hpnil⟩
    simp only [unread, State.offset, hoff]
    exact hu

/-- The writer's journal is removed. -/
theorem Inv.unlink {todo : List String} {events : List Event} (hi : Inv sid w s)
    (hpc : s.pc = .unlink (path w) todo events) :
    Inv sid w { s with
      files := Function.update s.files (path w) none
      offsets := Function.update s.offsets (path w) none
      identities := Function.update s.identities (path w) none
      pc := .next todo events } := by
  obtain ⟨hdead, hu⟩ := hi.unlinking todo events hpc
  have hpend : pending w s = ofWriter w events := by rw [pending, hpc]; rfl
  constructor
  case ledger =>
    have hl := hi.ledger
    rw [hu, hpend] at hl
    simpa [unread, pending, PC.events, Journal.delivered] using hl
  case offset_le => exact fun _ h => by simp at h
  case absent => exact fun _ => Function.update_self ..
  case own => exact fun _ h => by simp at h
  case last => exact fun _ h => by simp at h
  case seen => exact hi.seen
  case alive => exact fun h => absurd h (by simp [hdead])
  case unlinking => exact fun _ _ h => by simp at h
  case past => exact fun _ _ => by simp [unread]
  case settled => exact fun hc => ⟨by simp [unread], hpend.symm.trans (hi.settled hc).2⟩

/-- Another journal is removed. -/
theorem Inv.unlinkOther {p : String} {todo : List String} {events : List Event}
    (hi : Inv sid w s) (hp : p ≠ path w) (hpc : s.pc = .unlink p todo events) :
    Inv sid w { s with
      files := Function.update s.files p none
      offsets := Function.update s.offsets p none
      identities := Function.update s.identities p none
      pc := .next todo events } := by
  have hf : Function.update s.files p none (path w) = s.files (path w) :=
    Function.update_of_ne (Ne.symm hp) none s.files
  have ho : Function.update s.offsets p none (path w) = s.offsets (path w) :=
    Function.update_of_ne (Ne.symm hp) none s.offsets
  have hids : Function.update s.identities p none (path w) = s.identities (path w) :=
    Function.update_of_ne (Ne.symm hp) none s.identities
  have hm : Inv sid w { s with pc := .next todo events } :=
    hi.move (by rw [hpc]; rfl) (fun _ _ h => by simp at h) fun _ h => by rw [hpc]; exact .inl h
  constructor
  case ledger =>
    simp only [unread, State.offset, hf, ho]
    exact hm.ledger
  case offset_le => simpa only [State.offset, hf, ho] using hm.offset_le
  case absent => simpa only [hf, ho] using hm.absent
  case own => simpa only [hf] using hm.own
  case last => simpa only [hids] using hm.last
  case seen => exact hm.seen
  case alive => exact hm.alive
  case unlinking => exact fun _ _ h => by simp at h
  case past =>
    simp only [unread, State.offset, hf, ho]
    exact hm.past
  case settled =>
    simp only [unread, State.offset, hf, ho]
    exact hm.settled

/-- `read` returns: what was pending is delivered. -/
theorem Inv.ret {events : List Event} (hi : Inv sid w s) (hpc : s.pc = .next [] events) :
    Inv sid w { s with
      pc := .idle, returns := s.returns ++ [events]
      completed := if s.os.live w then s.completed else s.completed + 1 } := by
  have hpend : pending w s = ofWriter w events := by rw [pending, hpc]; rfl
  constructor
  case ledger =>
    have hl := hi.ledger
    rw [hpend] at hl
    simpa [unread, pending, PC.events, Journal.delivered, State.offset] using hl
  case offset_le => exact hi.offset_le
  case absent => exact hi.absent
  case own => exact hi.own
  case last => exact hi.last
  case seen => exact hi.seen
  case alive =>
    intro h
    have h : s.os.live w = true := h
    simpa [h] using hi.alive h
  case unlinking => exact fun _ _ h => by simp at h
  case past => exact fun _ h => h.elim
  case settled =>
    intro hc
    refine ⟨?_, rfl⟩
    have hc : 2 ≤ if s.os.live w = true then s.completed else s.completed + 1 := hc
    have hone : 1 ≤ s.completed := by split at hc <;> omega
    exact hi.past hone (by rw [hpc]; exact List.not_mem_nil)

/-- Every step that meets the condition keeps the invariant. -/
theorem inv_step (h : Step sid w s l s') (hc : Clean sid w s l) (hi : Inv sid w s) :
    Inv sid w s' := by
  cases h with
  | create hl => simpa [accepted] using hi.grow hl [] (by simp [accepted])
  | append line hl hown =>
    refine hi.grow hl [line] fun r hr => ?_
    obtain ⟨line', hmem, hacc⟩ := List.mem_filterMap.mp hr
    obtain rfl : line' = line := List.mem_singleton.mp hmem
    exact hown r (Line.eq_of_accepted hacc)
  | other p lines hp =>
    exact hi.frame (Function.update_of_ne (Ne.symm hp) lines s.files) hi.seen fun h => h
  | os q hq => exact hi.frame rfl (hq.seen_mono hi.seen) fun h => hq.dead_stays hi.seen h
  | list todo hpc _ hglob =>
    refine hi.move (by rw [hpc]; rfl) (fun _ _ h => by simp at h) fun _ h => .inr ?_
    have hnone : s.files (path w) = none := by
      rw [← Option.not_isSome_iff_eq_none]
      exact fun hs => h ((hglob _).mpr hs)
    simp [unread, hnone]
  | «open» p todo events hpc hfile =>
    refine hi.move (by rw [hpc]; rfl) (fun _ _ h => by simp at h) fun _ h => .inl ?_
    rw [hpc]
    exact fun hm => (List.mem_cons.mp hm).elim (fun he => h.1 he.symm) h.2
  | readline p todo events lines line hpc hfile hline =>
    by_cases hp : p = path w
    · subst hp
      cases ha : line.accepted? sid with
      | none =>
        simpa using hi.readline hpc hfile hline s.identities s.stopping hi.last []
          (by simp [accepted, ha])
      | some r =>
        have hr : r.identity = w := by
          refine hi.own lines hfile r (List.mem_filterMap.mpr ⟨line, ?_, ha⟩)
          exact List.mem_of_getElem? hline
        refine hi.readline hpc hfile hline _ _ (fun r' h => ?_) [(path w, r)]
          (by simp [accepted, ha, ofWriter])
        have : r = r' := by simpa using h
        exact this ▸ hr
    · cases ha : line.accepted? sid with
      | none => simpa using hi.readlineOther hp hpc s.identities s.stopping rfl ofWriter_nil
      | some r =>
        exact hi.readlineOther hp hpc _ _ (Function.update_of_ne (Ne.symm hp) ..)
          (by simp [ofWriter, hp])
  | eof p todo events hpc hfile =>
    refine hi.move (by rw [hpc]; rfl) (fun _ _ h => by simp at h) fun _ h => ?_
    by_cases hp : p = path w
    · subst hp
      refine .inr ?_
      unfold unread
      split
      · rename_i lines hf
        rw [List.drop_eq_nil_of_le (hfile lines hf)]
        rfl
      · rfl
    · exact .inl (by rw [hpc]; exact ⟨hp, h⟩)
  | live p todo events hpc hlive =>
    exact hi.move (by rw [hpc]; rfl) (fun _ _ h => by simp at h) fun _ h => by
      rw [hpc]; exact .inl h
  | dead p todo events r hpc hlast hdead =>
    refine hi.move (by rw [hpc]; rfl) (fun todo' events' h => ?_) fun _ h => by
      rw [hpc]; exact .inl h
    obtain ⟨rfl, -, -⟩ : p = path w ∧ todo = todo' ∧ events = events' := by simpa using h
    exact ⟨hi.last r hlast ▸ hdead, hc rfl⟩
  | unlink p todo events hpc =>
    by_cases hp : p = path w
    · subst hp
      exact hi.unlink hpc
    · exact hi.unlinkOther hp hpc
  | ret events hpc => exact hi.ret hpc
  | raise hpc =>
    have hc : pending w s = [] := hc
    exact hi.move (by simpa [pending, PC.events] using hc.symm) (fun _ _ h => by simp at h)
      fun _ h => h.elim

/-! ## The delivery contract -/

/-- **The journal is delivered in every run whose steps are clean.** -/
theorem delivered_of_clean
    (h : Reachable (Init sid w) (fun s l s' => Step sid w s l s' ∧ Clean sid w s l) s) :
    Delivered sid w s :=
  Inv.delivered (h.invariant (fun _ h0 => Inv.init h0) fun _ _ _ hs hi => inv_step hs.1 hs.2 hi)

/-- A worker whose journal is empty, and the controller. -/
def fresh (w : Identity) (hpos : 0 < w.pid) : State where
  os := Processes.empty.spawn w hpos
  files _ := none
  offsets _ := none
  identities _ := none
  stopping := .empty
  pc := .idle
  written := []
  returns := []
  completed := 0

theorem fresh_init (hpos : 0 < w.pid) : Init sid w (fresh w hpos) where
  live := by simp [fresh, Processes.live, Processes.spawn]
  files _ h := by simp [fresh] at h
  offsets := rfl
  identities := rfl
  pc := rfl
  written := rfl
  returns := rfl
  completed := rfl

/-- A lifecycle record of the process 7. -/
def lifecycle (message : String) (retired : Bool) (sequence : Nat) : JournalRecord :=
  ⟨⟨7, 0⟩, .str "start", 20, message, none, retired, sequence⟩

section Listing

variable {files : String → Option (List Line)} {p q : String}

/-- The listing of a directory in which nothing but `p` may exist. -/
theorem glob_singleton (hp : (files p).isSome = true) (hother : q ≠ p → files q = none) :
    q ∈ [p] ↔ (files q).isSome = true := by
  by_cases hq : q = p
  · simp [hq, hp]
  · simp [hq, hother hq]

theorem glob_nil (hp : files p = none) (hother : q ≠ p → files q = none) :
    q ∈ [] ↔ (files q).isSome = true := by
  by_cases hq : q = p
  · simp [hq, hp]
  · simp [hother hq]

end Listing

theorem delivered_of_clean_started :
    ∃ s, s.completed = 2 ∧ s.written = [lifecycle "started" false 1] ∧
      Delivered (.str "start") ⟨7, 0⟩ s := by
  have h : Reachable (Init (.str "start") ⟨7, 0⟩) (fun s l s' => Step (.str "start") ⟨7, 0⟩ s l s' ∧
    Clean (.str "start") ⟨7, 0⟩ s l) _ := .start (fresh_init (by decide))
  have h := h.next ⟨.append _ (.record (lifecycle "started" false 1)) rfl
    fun r hr => (Line.record.inj hr) ▸ rfl, trivial⟩
  have h := h.next ⟨.os _ _ (.exit _ ⟨7, 0⟩ rfl), trivial⟩
  have h := h.next ⟨.list _ [path ⟨7, 0⟩] rfl (by simp) fun q => glob_singleton rfl
    fun hq => Function.update_of_ne hq .., trivial⟩
  have h := h.next ⟨.open _ _ _ _ rfl rfl, trivial⟩
  have h := h.next ⟨.readline _ _ _ _ _ _ rfl rfl rfl, trivial⟩
  have h := h.next ⟨.eof _ _ _ _ rfl fun lines hl => Option.some.inj hl ▸ Nat.le_refl 1, trivial⟩
  have h := h.next ⟨.dead _ _ _ _ _ rfl rfl rfl, fun _ => rfl⟩
  have h := h.next ⟨.unlink _ _ _ _ rfl, trivial⟩
  have h := h.next ⟨.ret _ _ rfl, trivial⟩
  have h := h.next ⟨.list _ [] rfl (by simp) fun q => glob_nil (p := path ⟨7, 0⟩) rfl
    fun hq => (Function.update_of_ne hq ..).trans (Function.update_of_ne hq ..), trivial⟩
  have h := h.next ⟨.ret _ _ rfl, trivial⟩
  exact ⟨_, rfl, rfl, delivered_of_clean h⟩

/-- **A final record can be lost**: appended after the end of the file was found and before the
process was looked at, it is removed unread with the journal. -/
theorem final_record_lost :
    ∃ s, Reachable (Init (.str "start") ⟨7, 0⟩) (Step (.str "start") ⟨7, 0⟩) s ∧
      s.os.live ⟨7, 0⟩ = false ∧ s.completed = 2 ∧
      s.written = [lifecycle "started" false 1, lifecycle "stopped" true 2] ∧
      delivered ⟨7, 0⟩ s = [lifecycle "started" false 1] ∧
      ¬ Delivered (.str "start") ⟨7, 0⟩ s := by
  have h : Reachable (Init (.str "start") ⟨7, 0⟩) (Step (.str "start") ⟨7, 0⟩) _ :=
    .start (fresh_init (by decide))
  have h := h.next (.append _ (.record (lifecycle "started" false 1)) rfl
    fun r hr => (Line.record.inj hr) ▸ rfl)
  have h := h.next (.list _ [path ⟨7, 0⟩] rfl (by simp) fun q => glob_singleton rfl
    fun hq => Function.update_of_ne hq ..)
  have h := h.next (.open _ _ _ _ rfl rfl)
  have h := h.next (.readline _ _ _ _ _ _ rfl rfl rfl)
  have h := h.next (.eof _ _ _ _ rfl fun lines hl => Option.some.inj hl ▸ Nat.le_refl 1)
  -- the writer's last record and its death fall before the liveness check
  have h := h.next (.append _ (.record (lifecycle "stopped" true 2)) rfl
    fun r hr => (Line.record.inj hr) ▸ rfl)
  have h := h.next (.os _ _ (.exit _ ⟨7, 0⟩ rfl))
  have h := h.next (.dead _ _ _ _ _ rfl rfl rfl)
  have h := h.next (.unlink _ _ _ _ rfl)
  have h := h.next (.ret _ _ rfl)
  have h := h.next (.list _ [] rfl (by simp) fun q => glob_nil (p := path ⟨7, 0⟩) rfl
    fun hq => (Function.update_of_ne hq ..).trans
      ((Function.update_of_ne hq ..).trans (Function.update_of_ne hq ..)))
  have h := h.next (.ret _ _ rfl)
  refine ⟨_, h, rfl, rfl, rfl, rfl, fun hd => ?_⟩
  have hlost := congrArg List.length (hd.settled rfl (Nat.le_refl 2))
  exact absurd hlost (by decide)

end LclFastapi.Background.Journal
