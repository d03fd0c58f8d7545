import LclFastapi.Runtime.Service

/-!
# The control secret belongs to the recorded master

`At` says, for each program point of a master, what `runtime.json` and `control.token` hold as far
as its own start is concerned. The lock lets one master at a time change the two files, so the
invariant of the others survives every one of its operations.

* **`secret_consistent`**: while `runtime.json` names a live master inside its scope, the token is
  that start's secret behind restricted access; markers of other starts are not accepted; an exit
  removes files only when `runtime.json` names its start, or after removing it itself.
* `leftBehind`: an exit whose clean-up raises leaves its record, and the next start writes its own
  secret next to it while the first master still lives.
-/

namespace LclFastapi.Runtime.Service

open Lib (Identity Processes Run)

variable {s s' : State} {l : Label} {p q : Identity} {st st' : Start} {f f' : Files} {pc pc' : PC}

/-! ## Records -/

@[simp] theorem identity_service_id (st : Start) :
    st.identity.get "service_id" = some (.str st.service_id) := by
  simp [Start.identity, processIdentity, Record.get, List.lookup_cons]

theorem serviceId_identity (st : Start) :
    serviceId? (.object st.identity) = some st.service_id := by
  simp [serviceId?, readState]

/-- Records of different processes differ. -/
theorem process_of_identity (h : st.identity = st'.identity) : st.process = st'.process := by
  obtain ⟨⟨pid, created⟩, sid, secret, settings⟩ := st
  obtain ⟨⟨pid', created'⟩, sid', secret', settings'⟩ := st'
  simp only [Start.identity, processIdentity, List.cons_append, List.nil_append, List.cons.injEq,
    Prod.mk.injEq, Value.int.injEq, Value.float.injEq, true_and, Nat.cast_inj] at h
  obtain ⟨rfl, rfl, -⟩ := h
  rfl

theorem pyEq_str (v : Value) (sid : String) : v.pyEq (.str sid) = true ↔ v = .str sid := by
  unfold Value.pyEq
  cases v <;> simp [Value.number?]

theorem ofStart_iff {file : Stored} : ofStart file st ↔ serviceId? file = some st.service_id := by
  unfold ofStart serviceId?
  constructor
  · rintro ⟨v, hv, heq⟩
    rw [(pyEq_str v _).mp heq] at hv
    rw [hv]
  · intro h
    split at h
    · rename_i sid hsid
      exact ⟨_, hsid, (pyEq_str _ _).mpr (by rw [Option.some.inj h])⟩
    · exact absurd h nofun

/-- `runtime.json` is the record of the start. -/
def Names (f : Files) (st : Start) : Prop := f.runtime = .object st.identity

theorem Names.ofStart (h : Names f st) : ofStart f.runtime st := by
  rw [ofStart_iff, h, serviceId_identity]

/-- The token is the start's secret, behind restricted access. -/
def Secret (f : Files) (st : Start) : Prop := f.token = some ⟨true, st.secret⟩

/-! ## What a master knows -/

/-- What the files hold at each program point of the start's master. -/
def At (f : Files) (st : Start) : PC → Prop
  | .idle | .over_ true => True
  | .unlinkShutdown | .unlinkReload | .touch | .removeToken | .unlock false | .over_ false =>
    ¬ Names f st
  | .restrict => f.token ≠ none ∧ ¬ Names f st
  | .truncate | .write => (∃ t, f.token = some t ∧ t.restricted = true) ∧ ¬ Names f st
  | .publish => Secret f st ∧ ¬ Names f st
  | .target | .pid | .serving | .cleanup | .removeRuntime => Secret f st ∧ Names f st
  | .check | .unlock true => Names f st → Secret f st
  | .removeShutdown | .removeReload | .removeControl | .removeObservations _ | .removePid =>
    f.runtime = .absent

theorem At.congr (h : At f st pc) (hr : f'.runtime = f.runtime) (ht : f'.token = f.token) :
    At f' st pc := by
  have hn : Names f' st ↔ Names f st := by unfold Names; rw [hr]
  have hs : Secret f' st ↔ Secret f st := by unfold Secret; rw [ht]
  unfold At at h ⊢
  split at h <;> simp only [hn, hs, hr, ht] <;> exact h

/-- What a master outside the lock knows is about its own record only. -/
theorem At.outside (h : At f st pc) (hout : pc.inside = false)
    (hr : f'.runtime = f.runtime ∨ f'.runtime = .absent ∨
      ∃ st' : Start, st'.process ≠ st.process ∧ f'.runtime = .object st'.identity) :
    At f' st pc := by
  have hn (h : ¬ Names f st) : ¬ Names f' st := by
    intro hn
    rcases hr with hr | hr | ⟨st', hne, hr⟩
    · exact h (hr.symm.trans hn)
    · exact absurd (hr.symm.trans hn) nofun
    · exact hne (process_of_identity (Stored.object.inj (hr.symm.trans hn)))
  cases pc with
  | idle => trivial
  | over_ left =>
    cases left with
    | true => trivial
    | false => exact hn h
  | _ => exact absurd hout.symm Bool.false_ne_true

/-- Whenever an operation of the start raises or its body ends. -/
theorem At.leave (h : At f st pc) (hpc : pc.starting = true) : At f st .check := by
  intro hn
  cases pc <;> first
    | exact absurd hpc Bool.false_ne_true
    | exact absurd hn h
    | exact absurd hn h.2
    | exact h.1

/-- Whenever an operation of the clean-up raises. -/
theorem At.cleanFail (h : At f st pc) (hpc : pc.cleaning = true) :
    At f st (.unlock !pc.removed) := by
  have gone (hr : f.runtime = .absent) : ¬ Names f st := fun hn => absurd (hr.symm.trans hn) nofun
  cases pc <;> first
    | exact absurd hpc Bool.false_ne_true
    | exact h
    | exact fun _ => h.1
    | exact gone h

/-! ## The invariant -/

/-- The masters, their starts and the lock. -/
structure Who (s : State) : Prop where
  holder : ∀ p, (s.pc p).inside = true → s.lock = some p
  busy : ∀ p, s.pc p ≠ .idle → s.os.live p = true ∧ ∃ st, s.start p = some st
  seen : ∀ p st, s.start p = some st → p ∈ s.os.seen
  dead : ∀ p st, s.start p = some st → s.pc p = .idle → s.os.live p = false
  process : ∀ p st, s.start p = some st → st.process = p
  ids : ∀ p st, s.start p = some st → st.service_id ∈ s.ids
  distinct : ∀ p q st st', s.start p = some st → s.start q = some st' →
    st.service_id = st'.service_id → p = q

structure Inv (s : State) : Prop where
  who : Who s
  at_pc : ∀ p st, s.start p = some st → At s.files st (s.pc p)
  /-- `runtime.json` carries no future `service_id`. -/
  known : KnownBy s.ids s.files.runtime
  /-- A record with a start's `service_id` is that start's record. -/
  own : ∀ p st, s.start p = some st → ofStart s.files.runtime st → Names s.files st

theorem Init.inv (h : Init s) : Inv s where
  who :=
    { holder := fun p hp => by rw [h.pc p] at hp; exact absurd hp Bool.false_ne_true
      busy := fun p hp => absurd (h.pc p) hp
      seen := fun p _ hs => absurd ((h.start p).symm.trans hs) nofun
      dead := fun p _ hs => absurd ((h.start p).symm.trans hs) nofun
      process := fun p _ hs => absurd ((h.start p).symm.trans hs) nofun
      ids := fun p _ hs => absurd ((h.start p).symm.trans hs) nofun
      distinct := fun p _ _ _ hs => absurd ((h.start p).symm.trans hs) nofun }
  at_pc p _ hs := absurd ((h.start p).symm.trans hs) nofun
  known := h.runtime
  own p _ hs := absurd ((h.start p).symm.trans hs) nofun

@[simp] theorem goto_pc (s : State) (p : Identity) (pc : PC) :
    (s.goto p pc).pc = Function.update s.pc p pc := rfl

/-- The lock holder is the only master inside. -/
theorem Who.outside (hw : Who s) (hp : s.lock = some p) (hne : q ≠ p) :
    (s.pc q).inside = false := by
  cases hq : (s.pc q).inside with
  | false => rfl
  | true => exact absurd (Option.some.inj ((hw.holder q hq).symm.trans hp)) hne

/-- A master inside moves on to a program point that is not before its start. -/
theorem Who.goto (hw : Who s) (hin : (s.pc p).inside = true) (hne : pc ≠ .idle) :
    Who (s.goto p pc) := by
  have hbusy : s.pc p ≠ .idle := fun h => by rw [h] at hin; exact Bool.false_ne_true hin
  have old {q : Identity} (hq : q ≠ p) : (s.goto p pc).pc q = s.pc q :=
    Function.update_of_ne hq ..
  refine ⟨fun q hq => ?_, fun q hq => ?_, hw.seen, fun q st hs hq => ?_, hw.process, hw.ids,
    hw.distinct⟩
  · by_cases h : q = p
    · exact h ▸ hw.holder p hin
    · exact hw.holder q (old h ▸ hq)
  · by_cases h : q = p
    · exact h ▸ hw.busy p hbusy
    · exact hw.busy q (old h ▸ hq)
  · by_cases h : q = p
    · subst h
      rw [goto_pc, Function.update_self] at hq
      exact absurd hq hne
    · exact hw.dead q st hs (old h ▸ hq)

/-- Leaving the lock. -/
theorem Who.unlock (hw : Who s) {left : Bool} (hpc : s.pc p = .unlock left) :
    Who ({ s with lock := none }.goto p (.over_ left)) := by
  have hin : (s.pc p).inside = true := by rw [hpc]; rfl
  have hg : Who (s.goto p (.over_ left)) := hw.goto hin nofun
  refine ⟨fun q hq => ?_, hg.busy, hg.seen, hg.dead, hg.process, hg.ids, hg.distinct⟩
  by_cases h : q = p
  · subst h
    rw [goto_pc, Function.update_self] at hq
    exact absurd hq Bool.false_ne_true
  · rw [goto_pc, Function.update_of_ne h] at hq
    exact absurd ((hw.outside (hw.holder p hin) h).symm.trans hq) Bool.false_ne_true

/-- An operation of the master `p`, which holds the lock. -/
theorem Inv.did (hi : Inv s) (hs : s.start p = some st) (hin : (s.pc p).inside = true)
    (hne : pc ≠ .idle) (hat : At f st pc)
    (hr : f.runtime = s.files.runtime ∨ f.runtime = .absent ∨ f.runtime = .object st.identity) :
    Inv (s.did p f pc) := by
  have hw := hi.who
  have hst := hw.process p st hs
  refine ⟨⟨(hw.goto hin hne).holder, (hw.goto hin hne).busy, hw.seen, (hw.goto hin hne).dead,
    hw.process, hw.ids, hw.distinct⟩, fun q st' hs' => ?_, ?_, fun q st' hs' hown => ?_⟩
  · by_cases h : q = p
    · subst h
      obtain rfl := Option.some.inj (hs.symm.trans hs')
      show At f st ((State.goto { s with files := f } q pc).pc q)
      rw [goto_pc, Function.update_self]
      exact hat
    · show At f st' ((State.goto { s with files := f } p pc).pc q)
      rw [goto_pc, Function.update_of_ne h]
      refine (hi.at_pc q st' hs').outside (hw.outside (hw.holder p hin) h) ?_
      rcases hr with hr | hr | hr
      · exact .inl hr
      · exact .inr (.inl hr)
      · have hne : st.process ≠ st'.process := fun he =>
          h ((hw.process q st' hs').symm.trans (he.symm.trans hst))
        exact .inr (.inr ⟨st, hne, hr⟩)
  · show KnownBy s.ids f.runtime
    rcases hr with hr | hr | hr <;> rw [hr]
    · exact hi.known
    · exact nofun
    · intro sid hsid
      rw [serviceId_identity] at hsid
      exact Option.some.inj hsid ▸ hw.ids p st hs
  · have hown : ofStart f.runtime st' := hown
    rcases hr with hr | hr | hr
    · rw [hr] at hown
      exact hr.trans (hi.own q st' hs' hown)
    · rw [ofStart_iff, hr] at hown
      exact absurd hown nofun
    · rw [ofStart_iff, hr, serviceId_identity] at hown
      obtain rfl := hw.distinct p q st st' hs hs' (Option.some.inj hown)
      exact Option.some.inj (hs.symm.trans hs') ▸ hr

/-- The start of a master that is not idle, and what it knows. -/
theorem Inv.busy (hi : Inv s) (hpc : s.pc p = pc) (hne : pc ≠ .idle) :
    ∃ st, s.start p = some st ∧ At s.files st pc := by
  obtain ⟨-, st, hs⟩ := hi.who.busy p (hpc ▸ hne)
  exact ⟨st, hs, hpc ▸ hi.at_pc p st hs⟩

/-- A master inside moves without a file operation. -/
theorem Inv.goto (hi : Inv s) (hs : s.start p = some st) (hin : (s.pc p).inside = true)
    (hne : pc ≠ .idle) (hat : At s.files st pc) : Inv (s.goto p pc) :=
  hi.did (f := s.files) hs hin hne hat (.inl rfl)

/-- An operation that keeps `runtime.json`, whatever start the master is in. -/
theorem Inv.moves {before : PC} (hi : Inv s) (hpc : s.pc p = before)
    (hin : before.inside = true) (hne : pc ≠ .idle) (hruntime : f.runtime = s.files.runtime)
    (hat : ∀ st, At s.files st before → At f st pc) : Inv (s.did p f pc) := by
  obtain ⟨st, hs, h⟩ := hi.busy hpc fun hidle => by
    rw [hidle] at hin
    exact Bool.false_ne_true hin
  exact hi.did hs (hpc ▸ hin) hne (hat st h) (.inl hruntime)

/-- A start with a fresh `service_id`. -/
theorem Inv.begin (hi : Inv s) (hl : s.os.live st.process = true)
    (hnew : s.start st.process = none) (hfree : s.lock = none) (hfresh : st.service_id ∉ s.ids) :
    Inv ({ s with
      lock := some st.process
      start := Function.update s.start st.process (some st)
      ids := insert st.service_id s.ids }.goto st.process .unlinkShutdown) := by
  have hw := hi.who
  have hidle (q : Identity) (hq : q ≠ st.process) : (s.pc q).inside = false := by
    cases hin : (s.pc q).inside with
    | false => rfl
    | true => exact absurd ((hw.holder q hin).symm.trans hfree) nofun
  have hpcs (q : Identity) (hq : q ≠ st.process) :
      Function.update s.pc st.process .unlinkShutdown q = s.pc q :=
    Function.update_of_ne hq ..
  have hstart {q : Identity} {st' : Start}
      (h : Function.update s.start st.process (some st) q = some st') :
      (q = st.process ∧ st' = st) ∨ (q ≠ st.process ∧ s.start q = some st') := by
    by_cases hq : q = st.process
    · rw [hq, Function.update_self] at h
      exact .inl ⟨hq, (Option.some.inj h).symm⟩
    · rw [Function.update_of_ne hq] at h
      exact .inr ⟨hq, h⟩
  have hsome : Function.update s.start st.process (some st) st.process = some st :=
    Function.update_self ..
  -- nothing of the new start is in the files yet
  have hunknown : ¬ ofStart s.files.runtime st := fun h => hfresh (hi.known _ (ofStart_iff.mp h))
  refine ⟨⟨fun q hq => ?_, fun q hq => ?_, fun q st' hs => ?_, fun q st' hs hq => ?_,
    fun q st' hs => ?_, fun q st' hs => ?_, fun q q' a b ha hb hab => ?_⟩, fun q st' hs => ?_,
    fun sid h => .inr (hi.known sid h), fun q st' hs hown => ?_⟩
  · by_cases h : q = st.process
    · rw [h]
      rfl
    · rw [goto_pc, hpcs q h] at hq
      exact absurd ((hidle q h).symm.trans hq) Bool.false_ne_true
  · by_cases h : q = st.process
    · exact ⟨h ▸ hl, st, h ▸ hsome⟩
    · rw [goto_pc, hpcs q h] at hq
      obtain ⟨hlive, st', hs⟩ := hw.busy q hq
      exact ⟨hlive, st', (Function.update_of_ne h ..).trans hs⟩
  · rcases hstart hs with ⟨rfl, -⟩ | ⟨-, hs⟩
    · exact Processes.seen_of_live hl
    · exact hw.seen q st' hs
  · rcases hstart hs with ⟨rfl, -⟩ | ⟨h, hs⟩
    · rw [goto_pc, Function.update_self] at hq
      exact absurd hq nofun
    · rw [goto_pc, hpcs q h] at hq
      exact hw.dead q st' hs hq
  · rcases hstart hs with ⟨rfl, rfl⟩ | ⟨-, hs⟩
    · rfl
    · exact hw.process q st' hs
  · rcases hstart hs with ⟨-, rfl⟩ | ⟨-, hs⟩
    · exact .inl rfl
    · exact .inr (hw.ids q st' hs)
  · rcases hstart ha with ⟨hq, hst⟩ | ⟨-, hs⟩ <;> rcases hstart hb with ⟨hq', hst'⟩ | ⟨-, hs'⟩
    · rw [hq, hq']
    · exact absurd (hst ▸ hab ▸ hw.ids q' b hs') hfresh
    · exact absurd (hst' ▸ hab ▸ hw.ids q a hs) hfresh
    · exact hw.distinct q q' a b hs hs' hab
  · rcases hstart hs with ⟨rfl, rfl⟩ | ⟨h, hs⟩
    · rw [goto_pc, Function.update_self]
      exact fun hn => hunknown hn.ofStart
    · rw [goto_pc, hpcs q h]
      exact hi.at_pc q st' hs
  · rcases hstart hs with ⟨rfl, rfl⟩ | ⟨h, hs⟩
    · exact absurd hown hunknown
    · exact hi.own q st' hs hown

/-- The kernel kills, reaps and starts processes. -/
theorem Inv.withOs (hi : Inv s) {k : Processes} (hk : Processes.Step s.os k) :
    Inv (s.withOs k) := by
  have hw := hi.who
  have hpc {q : Identity} : (s.withOs k).pc q = if k.live q then s.pc q else .idle := rfl
  refine ⟨⟨fun q hq => ?_, fun q hq => ?_, fun q st hs => hk.seen_mono (hw.seen q st hs),
    fun q st hs hq => ?_, hw.process, hw.ids, hw.distinct⟩, fun q st hs => ?_, hi.known, hi.own⟩
  · rw [hpc] at hq
    split at hq
    · rename_i hl
      simp [State.withOs, hw.holder q hq, hl]
    · exact absurd hq Bool.false_ne_true
  · rw [hpc] at hq
    split at hq
    · exact ⟨‹_›, (hw.busy q hq).2⟩
    · exact absurd rfl hq
  · rw [hpc] at hq
    cases hl : k.live q with
    | false => exact hl
    | true =>
      rw [if_pos hl] at hq
      exact hk.dead_stays (hw.seen q st hs) (hw.dead q st hs hq)
  · rw [hpc]
    split
    · exact hi.at_pc q st hs
    · trivial

theorem inv_step (hi : Inv s) (h : Step s l s') : Inv s' := by
  cases h with
  | begin st hl hpc hnew hfree hfresh => exact hi.begin hl hnew hfree hfresh
  | os k hk => exact hi.withOs hk
  | other shutdown reload control observations hs hr =>
    obtain ⟨hholder, hbusy, hseen, hdead, hprocess, hids, hdistinct⟩ := hi.who
    exact ⟨⟨hholder, hbusy, hseen, hdead, hprocess, hids, hdistinct⟩,
      fun q st hs => (hi.at_pc q st hs).congr rfl rfl, hi.known, hi.own⟩
  | unlinkShutdown p hpc | unlinkReload p hpc =>
    exact hi.moves hpc rfl nofun rfl fun _ hat => hat
  | touch p hpc => exact hi.moves hpc rfl nofun rfl fun _ hat => ⟨nofun, hat⟩
  | restrict p t hpc ht =>
    exact hi.moves hpc rfl nofun rfl fun _ ⟨_, hat⟩ => ⟨⟨_, rfl, rfl⟩, hat⟩
  | truncate p hpc =>
    obtain ⟨st, hs, ⟨t, ht, hrestricted⟩, hat⟩ := hi.busy hpc nofun
    refine hi.did hs (by rw [hpc]; rfl) nofun ⟨⟨_, rfl, ?_⟩, hat⟩ (.inl rfl)
    rw [ht]
    exact hrestricted
  | write p st t hpc hs ht =>
    obtain ⟨st', hs', ⟨t', ht', hrestricted⟩, hat⟩ := hi.busy hpc nofun
    obtain rfl := Option.some.inj (hs.symm.trans hs')
    obtain rfl := Option.some.inj (ht.symm.trans ht')
    refine hi.did hs (by rw [hpc]; rfl) nofun ⟨?_, hat⟩ (.inl rfl)
    show some { t with content := st.secret } = some ⟨true, st.secret⟩
    rw [hrestricted]
  | publish p st hpc hs =>
    obtain ⟨st', hs', hsecret, -⟩ := hi.busy hpc nofun
    obtain rfl := Option.some.inj (hs.symm.trans hs')
    exact hi.did hs (by rw [hpc]; rfl) nofun ⟨hsecret, rfl⟩ (.inr (.inr rfl))
  | target p st enabled hpc hs => exact hi.moves hpc rfl nofun rfl fun _ hat => hat
  | pid p hpc => exact hi.moves hpc rfl nofun rfl fun _ hat => hat
  | leave p hpc =>
    obtain ⟨st, hs, hat⟩ := hi.busy rfl (fun h => by rw [h] at hpc; exact Bool.false_ne_true hpc)
    refine hi.goto hs ?_ nofun (hat.leave hpc)
    unfold PC.inside
    rw [hpc]
    rfl
  | writeFail p t text hpc ht =>
    exact hi.moves hpc rfl nofun rfl fun _ ⟨_, hat⟩ hn => absurd hn hat
  | check p st hpc hs hown =>
    obtain ⟨st', hs', hat⟩ := hi.busy hpc nofun
    obtain rfl := Option.some.inj (hs.symm.trans hs')
    have hn := hi.own p st hs hown
    exact hi.goto hs (by rw [hpc]; rfl) nofun ⟨hat hn, hn⟩
  | checkOther p st hpc hs hown =>
    exact hi.goto hs (by rw [hpc]; rfl) nofun fun hn => hown hn.ofStart
  | cleanup p hpc => exact hi.moves hpc rfl nofun rfl fun _ hat => hat
  | removeRuntime p hpc =>
    obtain ⟨st, hs, -⟩ := hi.busy hpc nofun
    exact hi.did hs (by rw [hpc]; rfl) nofun rfl (.inr (.inl rfl))
  | removeShutdown p hpc | removeReload p hpc | removeControl p todo hpc
  | removeObservation p st path todo hpc | keepObservation p st path todo hpc | observed p hpc
  | removeToken p hpc => exact hi.moves hpc rfl nofun rfl fun _ hat => hat
  | removePid p hpc =>
    exact hi.moves hpc rfl nofun rfl fun _ hat hn => absurd (hat.symm.trans hn) nofun
  | cleanFail p hpc =>
    obtain ⟨st, hs, hat⟩ := hi.busy rfl (fun h => by rw [h] at hpc; exact Bool.false_ne_true hpc)
    refine hi.goto hs ?_ nofun (hat.cleanFail hpc)
    unfold PC.inside
    rw [hpc, Bool.or_true]
    rfl
  | unlock p left hpc =>
    obtain ⟨st, hs, hat⟩ := hi.busy hpc nofun
    have hin : (s.pc p).inside = true := by rw [hpc]; rfl
    have hover : At s.files st (.over_ left) := by
      cases left with
      | true => trivial
      | false => exact hat
    have hg : Inv (s.goto p (.over_ left)) := hi.goto hs hin nofun hover
    exact ⟨hi.who.unlock hpc, hg.at_pc, hi.known, hi.own⟩

/-! ## Where program points come from -/

/-- The master that takes a step. -/
def Label.process : Label → Option Identity
  | .begin p | .inner p | .write p | .remove p | .cleanFail p | .left p => some p
  | .other | .os => none

/-- Another master's step leaves `p` where it is, unless the kernel kills it. -/
theorem pc_other (h : Step s l s') (hne : l.process ≠ some p) :
    s'.pc p = s.pc p ∨ s'.pc p = .idle := by
  cases h with
  | os k hk =>
    by_cases hl : k.live p = true
    · exact .inl (if_pos hl)
    · exact .inr (if_neg hl)
  | other => exact .inl rfl
  | _ => exact .inl (Function.update_of_ne (fun h => hne (by rw [h]; rfl)) ..)

/-- Only a failed clean-up leads to the `left` program points. -/
theorem left_step (h : Step s l s') (hp : s'.pc p = .unlock true ∨ s'.pc p = .over_ true) :
    (s.pc p = .unlock true ∨ s.pc p = .over_ true) ∨ l = .cleanFail p := by
  by_cases hne : l.process = some p
  · cases h with
    | other | os => exact absurd hne nofun
    | cleanFail => exact .inr (by rw [Option.some.inj hne])
    | unlock q left hpc =>
      obtain rfl := Option.some.inj hne
      rcases hp with hp | hp
      · exact absurd ((Function.update_self ..).symm.trans hp) nofun
      · obtain rfl := PC.over_.inj ((Function.update_self ..).symm.trans hp)
        exact .inl (.inl hpc)
    | _ =>
      obtain rfl := Option.some.inj hne
      rcases hp with hp | hp <;> exact absurd ((Function.update_self ..).symm.trans hp) nofun
  · rcases pc_other h hne with he | he
    · exact .inl (by rwa [he] at hp)
    · rw [he] at hp
      rcases hp with hp | hp <;> exact absurd hp nofun

/-- Between the removals of `runtime.json` and of the pid file. -/
def PC.emptied : PC → Bool
  | .removeShutdown | .removeReload | .removeControl | .removeObservations _ | .removePid => true
  | _ => false

/-- Only the removal of `runtime.json` leads to the other removals. -/
theorem emptied_step (h : Step s l s') (hp : (s'.pc p).emptied = true) :
    (s.pc p).emptied = true ∨ (l = .remove p ∧ s.pc p = .removeRuntime) := by
  by_cases hne : l.process = some p
  · cases h with
    | other | os => exact absurd hne nofun
    | removeRuntime q hpc =>
      obtain rfl := Option.some.inj hne
      exact .inr ⟨rfl, hpc⟩
    | removeShutdown q hpc | removeReload q hpc | removeControl q _ hpc
    | removeObservation q _ _ _ hpc | keepObservation q _ _ _ hpc | observed q hpc =>
      obtain rfl := Option.some.inj hne
      exact .inl (by rw [hpc]; rfl)
    | _ =>
      obtain rfl := Option.some.inj hne
      simp [State.did, PC.emptied] at hp
  · rcases pc_other h hne with he | he <;> rw [he] at hp
    · exact .inl hp
    · exact absurd hp Bool.false_ne_true

theorem remove_pc (h : Step s (.remove p) s') :
    s.pc p = .removeRuntime ∨ (s.pc p).emptied = true := by
  cases h with
  | removeRuntime _ hpc => exact .inl hpc
  | removeShutdown _ hpc | removeReload _ hpc | removeControl _ _ hpc
  | removeObservation _ _ _ _ hpc | removePid _ hpc => exact .inr (by rw [hpc]; rfl)

/-- Markers carry no future `service_id`. -/
def Markers (s : State) : Prop := KnownBy s.ids s.files.shutdown ∧ KnownBy s.ids s.files.reload

theorem ids_step (h : Step s l s') {sid : String} (hm : sid ∈ s.ids) : sid ∈ s'.ids := by
  cases h with
  | begin => exact .inr hm
  | _ => exact hm

theorem markers_step (hm : Markers s) (h : Step s l s') : Markers s' := by
  cases h with
  | begin => exact ⟨fun sid h => .inr (hm.1 sid h), fun sid h => .inr (hm.2 sid h)⟩
  | unlinkShutdown | removeShutdown => exact ⟨nofun, hm.2⟩
  | unlinkReload | removeReload => exact ⟨hm.1, nofun⟩
  | other _ _ _ _ hs hr => exact ⟨hs, hr⟩
  | _ => exact hm

/-! ## Runs -/

section Runs

variable {r : Run Step} {i j : Nat}

theorem Run.inv (h0 : Init (r.state 0)) (hi : i ≤ r.length) : Inv (r.state i) :=
  r.invariant h0.inv (fun _ _ _ h hi => inv_step hi h) i hi

/-- A record that outlives its scope was left by a failed clean-up. -/
theorem cleanFail_of_left (h0 : Init (r.state 0)) (hi : i ≤ r.length)
    (hp : (r.state i).pc p = .unlock true ∨ (r.state i).pc p = .over_ true) :
    ∃ k, k < i ∧ r.label k = .cleanFail p := by
  refine r.caused (P := fun s => s.pc p = .unlock true ∨ s.pc p = .over_ true)
    (E := fun _ l => l = .cleanFail p) (fun _ _ _ h hp => left_step h hp) ?_ hi hp
  rw [h0.pc p]
  rintro (h | h) <;> exact absurd h nofun

/-- What the other removals follow. -/
theorem removed_of_emptied (h0 : Init (r.state 0)) (hi : i ≤ r.length)
    (hp : ((r.state i).pc p).emptied = true) :
    ∃ k st, k < i ∧ r.label k = .remove p ∧ (r.state k).start p = some st ∧
      Names (r.state k).files st := by
  have hidle : ¬ ((r.state 0).pc p).emptied = true := by
    rw [h0.pc p]
    exact Bool.false_ne_true
  obtain ⟨k, hk, hl, hpc⟩ := r.caused (P := fun s => (s.pc p).emptied = true)
    (E := fun s l => l = .remove p ∧ s.pc p = .removeRuntime)
    (fun _ _ _ h hp => emptied_step h hp) hidle hi hp
  obtain ⟨st, hs, -, hn⟩ := (Run.inv h0 (hk.le.trans hi)).busy hpc nofun
  exact ⟨k, st, hk, hl, hs, hn⟩

theorem start_step (h : Step s l s') (hs : s.start p = some st) : s'.start p = some st := by
  cases h with
  | begin st' hl hpc hnew =>
    by_cases hp : p = st'.process
    · rw [hp, hnew] at hs
      exact absurd hs nofun
    · exact (Function.update_of_ne hp ..).trans hs
  | _ => exact hs

/-- What service starts guarantee of the control secret, over every run. -/
structure Consistent (r : Run Step) : Prop where
  /-- While `runtime.json` names a live master inside its scope, or one none of whose clean-up
  has raised, the token is its secret. -/
  token : ∀ i st, i ≤ r.length → (r.state i).start st.process = some st →
    Names (r.state i).files st → (r.state i).os.live st.process = true →
    ((r.state i).pc st.process).inside = true ∨
      (∀ k, k < i → r.label k ≠ .cleanFail st.process) → Secret (r.state i).files st
  /-- The secret is written behind restricted access. -/
  restricted : ∀ i p, i < r.length → r.label i = .write p →
    ∃ t, (r.state i).files.token = some t ∧ t.restricted = true
  /-- Whatever the markers were before a start, it accepts none of them. -/
  stale : ∀ i j p st, i < r.length → j ≤ i → r.label i = .begin p →
    (r.state (i + 1)).start p = some st → ¬ shutdownRequested (r.state j).files st ∧
      ∀ w, ¬ reloadRequested (r.state j).files st w
  /-- Nor does it ever accept one of another start. -/
  foreign : ∀ i st st', i ≤ r.length → (r.state i).start st.process = some st →
    (r.state i).start st'.process = some st' → st ≠ st' →
    (shutdownRequested (r.state i).files st' → ¬ shutdownRequested (r.state i).files st) ∧
      ∀ w w', reloadRequested (r.state i).files st' w' → ¬ reloadRequested (r.state i).files st w
  /-- An exit removes files while `runtime.json` names its start, or after removing that. -/
  removal : ∀ i p, i < r.length → r.label i = .remove p → ∃ st,
    (r.state i).start p = some st ∧ (Names (r.state i).files st ∨
      (r.state i).files.runtime = .absent ∧
        ∃ k, k < i ∧ r.label k = .remove p ∧ Names (r.state k).files st)

theorem secret_of_names (h0 : Init (r.state 0)) (hi : i ≤ r.length)
    (hs : (r.state i).start st.process = some st) (hn : Names (r.state i).files st)
    (hl : (r.state i).os.live st.process = true)
    (hscope : ((r.state i).pc st.process).inside = true ∨
      ∀ k, k < i → r.label k ≠ .cleanFail st.process) : Secret (r.state i).files st := by
  have hinv := Run.inv h0 hi
  have hat := hinv.at_pc _ st hs
  cases hpc : (r.state i).pc st.process with
  | idle => exact absurd ((hinv.who.dead _ st hs hpc).symm.trans hl) Bool.false_ne_true
  | over_ left =>
    rw [hpc] at hat hscope
    cases left with
    | false => exact absurd hn hat
    | true =>
      have hno := hscope.resolve_left Bool.false_ne_true
      obtain ⟨k, hk, hl⟩ := cleanFail_of_left h0 hi (.inr hpc)
      exact absurd hl (hno k hk)
  | unlock left =>
    rw [hpc] at hat
    cases left with
    | false => exact absurd hn hat
    | true => exact hat hn
  | check =>
    rw [hpc] at hat
    exact hat hn
  | unlinkShutdown | unlinkReload | touch | removeToken =>
    rw [hpc] at hat
    exact absurd hn hat
  | restrict | truncate | write | publish =>
    rw [hpc] at hat
    exact absurd hn hat.2
  | target | pid | serving | cleanup | removeRuntime =>
    rw [hpc] at hat
    exact hat.1
  | removeShutdown | removeReload | removeControl | removeObservations | removePid =>
    rw [hpc] at hat
    exact absurd (hn.symm.trans hat) nofun

/-- A fresh `service_id` was in no marker before. -/
theorem unmarked (hi : i < r.length) (hji : j ≤ i)
    (hl : r.label i = .begin p) (hs : (r.state (i + 1)).start p = some st) {file : Stored}
    (hf : KnownBy (r.state j).ids file) : ¬ ofStart file st := by
  intro hown
  have hmem : st.service_id ∈ (r.state i).ids := by
    exact r.stays (P := fun s => st.service_id ∈ s.ids) (fun _ _ _ h hm => ids_step h hm) hji hi.le
      (hf _ (ofStart_iff.mp hown))
  have hstep := r.step_ok i hi
  rw [hl] at hstep
  generalize r.state (i + 1) = s' at hstep hs
  cases hstep with
  | begin st' hlive hpc hnew hfree hfresh =>
    have hst : Function.update (r.state i).start st'.process (some st') st'.process = some st := hs
    rw [Function.update_self] at hst
    exact hfresh (Option.some.inj hst ▸ hmem)

/-- **Start and exit publish the control secret consistently**, for any sequence of starts, exits
and crashes. -/
theorem secret_consistent (r : Run Step) (h0 : Init (r.state 0)) : Consistent r where
  token i st hi hs hn hl hscope := secret_of_names h0 hi hs hn hl hscope
  restricted i p hi hl := by
    have hstep := r.step_ok i hi
    rw [hl] at hstep
    generalize r.state (i + 1) = s' at hstep
    cases hstep with
    | write _ st t hpc hs ht =>
      obtain ⟨st', hs', hr, -⟩ := (Run.inv h0 hi.le).busy hpc nofun
      exact hr
  stale i j p st hi hji hl hs := by
    have hm : Markers (r.state j) := r.invariant (P := Markers) ⟨h0.shutdown, h0.reload⟩
      (fun _ _ _ h hm => markers_step hm h) j (hji.trans hi.le)
    exact ⟨unmarked hi hji hl hs hm.1, fun w h => unmarked hi hji hl hs hm.2 h.1⟩
  foreign i st st' hi hs hs' hne := by
    have same {file : Stored} (h' : ofStart file st') (h : ofStart file st) : False := by
      rw [ofStart_iff] at h h'
      have hid := Option.some.inj (h.symm.trans h')
      have hp := (Run.inv h0 hi).who.distinct _ _ st st' hs hs' hid
      rw [hp] at hs
      exact hne (Option.some.inj (hs.symm.trans hs'))
    exact ⟨same, fun w w' h' h => same h'.1 h.1⟩
  removal i p hi hl := by
    have hstep := r.step_ok i hi
    rw [hl] at hstep
    have hinv := Run.inv h0 hi.le
    rcases remove_pc hstep with hpc | hpc
    · obtain ⟨st, hs, -, hn⟩ := hinv.busy hpc nofun
      exact ⟨st, hs, .inl hn⟩
    · obtain ⟨k, st, hk, hlk, hs, hn⟩ := removed_of_emptied h0 hi.le hpc
      have hsi : (r.state i).start p = some st :=
        r.stays (P := fun s => s.start p = some st) (fun _ _ _ h hs => start_step h hs) hk.le
          hi.le hs
      refine ⟨st, hsi, .inr ⟨?_, k, hk, hlk, hn⟩⟩
      have hat := hinv.at_pc p st hsi
      revert hat hpc
      generalize (r.state i).pc p = pc
      intro hpc hat
      cases pc <;> first | exact hat | exact absurd hpc Bool.false_ne_true

end Runs

/-! ## Two masters -/

def first : Start := ⟨⟨1, 0⟩, "first", "alpha", []⟩

def second : Start := ⟨⟨2, 0⟩, "second", "beta", []⟩

/-- The first master starts and serves. -/
def serving : Run Step :=
  let r := Run.start Step
    { os := .ofList [⟨1, 0⟩, ⟨2, 0⟩]
      lock := none
      files :=
        { runtime := .absent, token := none, shutdown := .absent, reload := .absent
          control := .absent, observations := fun _ => .absent, pid := none }
      start := fun _ => none, ids := ∅, pc := fun _ => .idle } .os
  let r := r.snoc (.begin _ first rfl rfl rfl rfl id)
  let r := r.snoc (.unlinkShutdown _ ⟨1, 0⟩ rfl)
  let r := r.snoc (.unlinkReload _ ⟨1, 0⟩ rfl)
  let r := r.snoc (.touch _ ⟨1, 0⟩ rfl)
  let r := r.snoc (.restrict _ ⟨1, 0⟩ _ rfl rfl)
  let r := r.snoc (.truncate _ ⟨1, 0⟩ rfl)
  let r := r.snoc (.write _ ⟨1, 0⟩ first _ rfl rfl rfl)
  let r := r.snoc (.publish _ ⟨1, 0⟩ first rfl rfl)
  let r := r.snoc (.target _ ⟨1, 0⟩ first false rfl rfl)
  r.snoc (.pid _ ⟨1, 0⟩ rfl)

theorem serving_init : Init (serving.state 0) :=
  ⟨rfl, fun _ => rfl, fun _ => rfl, nofun, nofun, nofun⟩

theorem secret_consistent_serving :
    Names (serving.state 10).files first ∧ Secret (serving.state 10).files first ∧
      Consistent serving := by
  have h := secret_consistent serving serving_init
  exact ⟨rfl, h.token 10 first (by decide) rfl rfl rfl (.inl rfl), h⟩

/-- The clean-up of the first master raises; it leaves the lock, and the second one starts. -/
def leftBehind : Run Step :=
  let r := serving
  let r := r.snoc (.leave _ ⟨1, 0⟩ rfl)
  let r := r.snoc (.check _ ⟨1, 0⟩ first rfl rfl (ofStart_iff.mpr rfl))
  let r := r.snoc (.cleanFail _ ⟨1, 0⟩ rfl)
  let r := r.snoc (.unlock _ ⟨1, 0⟩ true rfl)
  let r := r.snoc (.begin _ second rfl rfl rfl rfl (by
    intro h
    rcases h with h | h
    · exact absurd h (by decide)
    · exact h))
  let r := r.snoc (.unlinkShutdown _ ⟨2, 0⟩ rfl)
  let r := r.snoc (.unlinkReload _ ⟨2, 0⟩ rfl)
  let r := r.snoc (.touch _ ⟨2, 0⟩ rfl)
  let r := r.snoc (.restrict _ ⟨2, 0⟩ _ rfl rfl)
  let r := r.snoc (.truncate _ ⟨2, 0⟩ rfl)
  r.snoc (.write _ ⟨2, 0⟩ second _ rfl rfl rfl)

/-- **A clean-up that raises** leaves the record of a live master beside another's secret. -/
theorem left_inconsistent :
    ¬ ∀ r : Run Step, Init (r.state 0) → ∀ i st, i ≤ r.length →
      (r.state i).start st.process = some st → Names (r.state i).files st →
      (r.state i).os.live st.process = true → Secret (r.state i).files st := by
  intro h
  have hsecret : Secret (leftBehind.state 21).files first :=
    h leftBehind serving_init 21 first (by decide) rfl rfl rfl
  have htoken : (leftBehind.state 21).files.token = some ⟨true, "beta"⟩ := rfl
  exact absurd (hsecret.symm.trans htoken) (by decide)

end LclFastapi.Runtime.Service
