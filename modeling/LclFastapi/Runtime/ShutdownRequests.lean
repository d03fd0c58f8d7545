import LclFastapi.Runtime.Shutdown
import Mathlib.Tactic.IntervalCases

/-!
# A start is shut down on its own account only

`Knows` says, for one start, what a worker, a request or a command that has its record knows of its
secret. A reader of the state directory tests the record before it reads the token, so it has the
start's own secret unless the start has ended in between (`WithToken`); a request tests the record
again before it publishes, so a published marker was asked for under that very secret.

* **`shutdown_authentic`**: a marker of the start, and every exit or signal that follows from one,
  was asked for by a request with the start's secret at a worker of the start, by the journal pump
  of such a worker, or by the start's own master.
* **`marker_kept`**: the marker stays until the start's master removes it or dies, once no request
  for another start is under way.

A clean-up of the start that raises is excepted: its record stays beside the next start's secret
(`Service.left_inconsistent`).
-/

namespace LclFastapi.Runtime.Shutdown

open Lib (Identity Processes Run)
open Service (Start Files ofStart KnownBy Names Secret PC)

variable {s s' : State} {l : Label} {p w : Identity} {n : Nat} {record : Record} {st : Start}
  {t t' : Service.State} {lab : Service.Label}

/-! ## The record of a start -/

/-- Before the publication of the start's record. -/
def early : PC → Bool
  | .unlinkShutdown | .unlinkReload | .touch | .restrict | .truncate | .write | .publish => true
  | _ => false

/-- `runtime.json` will not name the start again. -/
def Gone (t : Service.State) (st : Start) : Prop :=
  ¬ Names t.files st ∧ early (t.pc st.process) = false

/-- The start is gone, or its master is dead. -/
def Over (t : Service.State) (st : Start) : Prop :=
  Gone t st ∨ t.os.live st.process = false

/-- The record was read from `runtime.json`. -/
def FromRuntime (t : Service.State) (st : Start) (record : Record) : Prop :=
  ofStart (.object record) st → record = st.identity ∧ (Names t.files st ∨ Gone t st)

/-- The token was read after the record, while the recorded master was live. -/
def WithToken (t : Service.State) (st : Start) (record : Record) (token : String) : Prop :=
  ofStart (.object record) st → record = st.identity ∧ (token = st.secret ∨ Over t st)

/-- What the scope of a master does to a start under way. -/
theorem start_cases (h : Service.Step t lab t') (hs : t'.start p = some st) :
    t.start p = some st ∨ (lab = .begin p ∧ st.service_id ∉ t.ids) := by
  cases h with
  | begin start hl hpc hnew hfree hfresh =>
    by_cases hp : p = start.process
    · subst hp
      have hst : Function.update t.start start.process (some start) start.process = some st := hs
      rw [Function.update_self] at hst
      obtain rfl := Option.some.inj hst
      exact .inr ⟨rfl, hfresh⟩
    · exact .inl ((Function.update_of_ne hp ..).symm.trans hs)
  | _ => exact .inl hs

theorem begin_pc (h : Service.Step t (.begin p) t') : t'.pc p = .unlinkShutdown := by
  cases h with
  | begin => exact Function.update_self ..

theorem begin_files (h : Service.Step t (.begin p) t') : t'.files = t.files := by
  cases h with
  | begin => rfl

theorem early_step (hs : t.start p = some st) (h : Service.Step t lab t')
    (hp : early (t.pc p) = false) : early (t'.pc p) = false := by
  by_cases hne : lab.process = some p
  · cases h with
    | other | os => exact absurd hne nofun
    | begin start hl hpc hnew =>
      obtain rfl := Option.some.inj hne
      exact absurd (hnew.symm.trans hs) nofun
    | unlinkShutdown q hpc | unlinkReload q hpc | touch q hpc | restrict q _ hpc
    | truncate q hpc | write q _ _ hpc =>
      obtain rfl := Option.some.inj hne
      rw [hpc] at hp
      exact absurd hp nofun
    | _ =>
      obtain rfl := Option.some.inj hne
      simp [Service.State.did, early]
  · rcases Service.pc_other h hne with he | he <;> rw [he]
    · exact hp
    · rfl

/-- Only the start's own publication names it. -/
theorem names_step (hi : Service.Inv t) (h : Service.Step t lab t') (hn : Names t'.files st) :
    Names t.files st ∨ t.pc st.process = .publish := by
  cases h with
  | publish q st' hpc hs' =>
    have hq : st'.process = st.process := Service.process_of_identity (Stored.object.inj hn)
    rw [← hq, hi.who.process q st' hs']
    exact .inr hpc
  | removeRuntime => exact absurd hn nofun
  | _ => exact .inl hn

theorem Names.late (hi : Service.Inv t) (hs : t.start st.process = some st)
    (hn : Names t.files st) : early (t.pc st.process) = false := by
  have hat := hi.at_pc _ st hs
  generalize t.pc st.process = pc at hat
  cases pc <;> first
    | rfl
    | exact absurd hn hat
    | exact absurd hn hat.2

theorem Gone.step (hi : Service.Inv t) (hs : t.start st.process = some st)
    (h : Service.Step t lab t') (hg : Gone t st) : Gone t' st := by
  refine ⟨fun hn => ?_, early_step hs h hg.2⟩
  rcases names_step hi h hn with hn | hpc
  · exact hg.1 hn
  · have := hg.2
    rw [hpc] at this
    exact absurd this nofun

theorem dead_step (hi : Service.Inv t) (hs : t.start st.process = some st)
    (h : Service.Step t lab t') (hd : t.os.live st.process = false) :
    t'.os.live st.process = false := by
  cases h with
  | os q hq => exact hq.dead_stays (hi.who.seen _ st hs) hd
  | _ => exact hd

theorem Over.step (hi : Service.Inv t) (hs : t.start st.process = some st)
    (h : Service.Step t lab t') (ho : Over t st) : Over t' st :=
  ho.imp (fun hg => hg.step hi hs h) (dead_step hi hs h)

theorem named_or_gone_step (hi : Service.Inv t) (hs : t.start st.process = some st)
    (h : Service.Step t lab t') (hg : Names t.files st ∨ Gone t st) :
    Names t'.files st ∨ Gone t' st := by
  rcases hg with hn | hg
  · by_cases hn' : Names t'.files st
    · exact .inl hn'
    · exact .inr ⟨hn', early_step hs h (Names.late hi hs hn)⟩
  · exact .inr (hg.step hi hs h)

/-- Its own record is live exactly while the master is. -/
theorem isLive_identity (os : Processes) (st : Start) :
    isLive os st.identity = os.live st.process := by
  rw [← isLive_processIdentity]
  have hget (key : String) (hk : (processIdentity st.process).get key ≠ none) :
      st.identity.get key = (processIdentity st.process).get key := by
    unfold Start.identity Record.get
    rw [List.lookup_append]
    cases h : List.lookup key (processIdentity st.process) with
    | none => exact absurd h hk
    | some v => rfl
  unfold isLive recordIdentity?
  rw [hget "pid" (by simp [processIdentity, Record.get]),
    hget "process_create_time" (by simp [processIdentity, Record.get])]

/-- While its record is there, a start whose clean-up has not raised has its secret beside it. -/
theorem secret_of_named (hi : Service.Inv t) (hs : t.start st.process = some st)
    (hn : Names t.files st)
    (hclean : t.pc st.process ≠ .unlock true ∧ t.pc st.process ≠ .over_ true) :
    Secret t.files st ∨ t.os.live st.process = false := by
  have hat := hi.at_pc _ st hs
  cases hpc : t.pc st.process with
  | idle => exact .inr (hi.who.dead _ st hs hpc)
  | over_ left =>
    rw [hpc] at hat hclean
    cases left with
    | false => exact absurd hn hat
    | true => exact absurd rfl hclean.2
  | unlock left =>
    rw [hpc] at hat
    cases left with
    | false => exact absurd hn hat
    | true => exact .inl (hat hn)
  | _ =>
    rw [hpc] at hat
    first
      | exact .inl hat.1
      | exact absurd hn hat
      | exact absurd hn hat.2
      | exact .inl (hat hn)
      | exact absurd (hn.symm.trans hat) nofun

theorem FromRuntime.step (hi : Service.Inv t) (hs : t.start st.process = some st)
    (h : Service.Step t lab t') (hr : FromRuntime t st record) : FromRuntime t' st record :=
  fun hown => ⟨(hr hown).1, named_or_gone_step hi hs h (hr hown).2⟩

theorem WithToken.step {token : String} (hi : Service.Inv t) (hs : t.start st.process = some st)
    (h : Service.Step t lab t') (hr : WithToken t st record token) :
    WithToken t' st record token :=
  fun hown => ⟨(hr hown).1, (hr hown).2.imp_right fun ho => ho.step hi hs h⟩

/-- What has just been read is in `runtime.json`. -/
theorem fromRuntime_read (hi : Service.Inv t) (hs : t.start st.process = some st) :
    FromRuntime t st (readState t.files.runtime) := by
  intro hown
  have hn : Names t.files st := hi.own _ st hs hown
  refine ⟨?_, .inl hn⟩
  rw [hn]
  rfl

/-- The token beside a record read before. -/
theorem FromRuntime.withToken {token : Service.Token} (hi : Service.Inv t)
    (hs : t.start st.process = some st)
    (hclean : t.pc st.process ≠ .unlock true ∧ t.pc st.process ≠ .over_ true)
    (ht : t.files.token = some token) (hr : FromRuntime t st record) :
    WithToken t st record token.content := by
  intro hown
  obtain ⟨hrec, hn | hg⟩ := hr hown
  · refine ⟨hrec, ?_⟩
    rcases secret_of_named hi hs hn hclean with hsecret | hd
    · obtain rfl := Option.some.inj (ht.symm.trans hsecret)
      exact .inl rfl
    · exact .inr (.inr hd)
  · exact ⟨hrec, .inr (.inl hg)⟩

/-- Equal records name the same start. -/
theorem ofStart_of_pyEq {a b : Record} (h : a.pyEq b = true) (ha : ofStart (.object a) st) :
    ofStart (.object b) st := by
  obtain ⟨v, hv, heq⟩ := ha
  obtain rfl := (Service.pyEq_str v _).mp heq
  have hmem : ("service_id", Value.str st.service_id) ∈ a := by
    obtain ⟨before, after, rfl, -⟩ := List.lookup_eq_some_iff.mp hv
    simp
  unfold Record.pyEq at h
  rw [Bool.and_eq_true, List.all_eq_true] at h
  have hb := h.2 _ hmem
  revert hb
  cases hget : Record.get b "service_id" with
  | none => exact fun hb => absurd hb Bool.false_ne_true
  | some v =>
    intro hb
    refine ⟨v, hget, ?_⟩
    rw [Service.pyEq_str]
    have hv := hb
    unfold Value.pyEq at hv
    cases v <;> simp_all [Value.number?]

/-! ## What is known of the secret -/

/-- What a worker knows. -/
def ScopeKnows (t : Service.State) (st : Start) : Scope → Prop
  | .outside => True
  | .read record | .verified record => FromRuntime t st record
  | .running runtime _ => WithToken t st runtime.service runtime.control_token

/-- What the `stop` command knows. -/
def StopKnows (t : Service.State) (st : Start) : Stop → Prop
  | .read record | .verified record => FromRuntime t st record
  | .sending record token => WithToken t st record token
  | _ => True

/-- What a request has found out. -/
def PhaseKnows (t : Service.State) (st : Start) (runtime : WorkerRuntime) : Phase → Prop
  | .scheduled | .over_ => True
  | .read current => ofStart (.object current) st → current = st.identity ∧
      (ofStart (.object runtime.service) st →
        runtime.control_token = st.secret ∨ t.os.live st.process = false)
  | .verified current | .marked current => ofStart (.object current) st →
      current = st.identity ∧ runtime = ⟨st.identity, st.secret⟩

/-- What a request knows. -/
structure TaskKnows (t : Service.State) (st : Start) (task : Task) : Prop where
  runtime : WithToken t st task.runtime.service task.runtime.control_token
  phase : PhaseKnows t st task.runtime task.phase

/-- What everybody knows of the secret of the start, once it has begun. -/
structure Knows (st : Start) (s : State) : Prop where
  clean : s.service.pc st.process ≠ .unlock true ∧ s.service.pc st.process ≠ .over_ true
  scope : ∀ w, ScopeKnows s.service st (s.scope w)
  task : ∀ n task, s.task n = some task → TaskKnows s.service st task
  stop : ∀ c, StopKnows s.service st (s.stop c)

theorem ScopeKnows.step (hi : Service.Inv t) (hs : t.start st.process = some st)
    (h : Service.Step t lab t') : ∀ {scope : Scope}, ScopeKnows t st scope → ScopeKnows t' st scope
  | .outside, _ => trivial
  | .read _, hk | .verified _, hk => FromRuntime.step hi hs h hk
  | .running .., hk => WithToken.step hi hs h hk

theorem StopKnows.step (hi : Service.Inv t) (hs : t.start st.process = some st)
    (h : Service.Step t lab t') : ∀ {stop : Stop}, StopKnows t st stop → StopKnows t' st stop
  | .read _, hk | .verified _, hk => FromRuntime.step hi hs h hk
  | .sending .., hk => WithToken.step hi hs h hk
  | .idle, _ | .answered .., _ | .waiting .., _ | .polled .., _ | .over_ .., _ => trivial

theorem TaskKnows.step {task : Task} (hi : Service.Inv t) (hs : t.start st.process = some st)
    (h : Service.Step t lab t') (hk : TaskKnows t st task) : TaskKnows t' st task := by
  obtain ⟨process, runtime, phase⟩ := task
  refine ⟨hk.runtime.step hi hs h, ?_⟩
  have hp := hk.phase
  cases phase with
  | scheduled | over_ => trivial
  | verified | marked => exact hp
  | read current =>
    exact fun hown => ⟨(hp hown).1, fun hrt => ((hp hown).2 hrt).imp_right (dead_step hi hs h)⟩

/-- A step of the service scopes after the start has begun. -/
theorem Knows.service {f : Service.State} (hi : Service.Inv s.service)
    (hs : s.service.start st.process = some st) (h : Service.Step s.service lab f)
    (hc : lab ≠ .cleanFail st.process) (hk : Knows st s) : Knows st { s with service := f } where
  clean := by
    have hnot (hp : f.pc st.process = .unlock true ∨ f.pc st.process = .over_ true) : False := by
      rcases Service.left_step h hp with (hp | hp) | rfl
      · exact hk.clean.1 hp
      · exact hk.clean.2 hp
      · exact hc rfl
    exact ⟨fun hp => hnot (.inl hp), fun hp => hnot (.inr hp)⟩
  scope w := (hk.scope w).step hi hs h
  task n task hn := (hk.task n task hn).step hi hs h
  stop c := (hk.stop c).step hi hs h

/-- Before the start, nobody has its record. -/
theorem Knows.begin (hk : Known s) (hfresh : st.service_id ∉ s.service.ids) {f : Service.State}
    (hclean : f.pc st.process ≠ .unlock true ∧ f.pc st.process ≠ .over_ true) :
    Knows st { s with service := f } := by
  have unknown {record : Record} (h : Held s record) : ¬ ofStart (.object record) st :=
    fun hown => hfresh (hk.held record h _ (Service.ofStart_iff.mp hown))
  refine ⟨hclean, fun w => ?_, fun n task hn => ?_, fun c => ?_⟩
  · have hw (record : Record) (h : (s.scope w).record? = some record) :=
      unknown (Held.scope h)
    show ScopeKnows f st (s.scope w)
    cases h : s.scope w with
    | outside => trivial
    | read | verified | running => exact fun hown => absurd hown (hw _ (by rw [h]; rfl))
  · have hr : ¬ ofStart (.object task.runtime.service) st := unknown (Held.task hn (.inl rfl))
    refine ⟨fun hown => absurd hown hr, ?_⟩
    have hp (record : Record) (h : task.phase.record? = some record) :=
      unknown (Held.task hn (.inr h))
    cases h : task.phase with
    | scheduled | over_ => trivial
    | read | verified | marked => exact fun hown => absurd hown (hp _ (by rw [h]; rfl))
  · have hc (record : Record) (h : (s.stop c).record? = some record) :=
      unknown (Held.stop h)
    show StopKnows f st (s.stop c)
    cases h : s.stop c with
    | read | verified | sending => exact fun hown => absurd hown (hc _ (by rw [h]; rfl))
    | _ => trivial

theorem Knows.withScope {scope : Scope} (hk : Knows st s) (h : ScopeKnows s.service st scope) :
    Knows st (s.withScope w scope) where
  clean := hk.clean
  scope v := by
    by_cases he : v = w
    · subst he
      simpa [State.withScope] using h
    · simpa [State.withScope, he] using hk.scope v
  task := hk.task
  stop := hk.stop

theorem Knows.withTask {task : Task} (hk : Knows st s) (h : TaskKnows s.service st task) :
    Knows st (s.withTask n task) where
  clean := hk.clean
  scope := hk.scope
  task m task' hm := by
    by_cases he : m = n
    · subst he
      obtain rfl : task = task' := by simpa [State.withTask] using hm
      exact h
    · exact hk.task m task' (by simpa [State.withTask, he] using hm)
  stop := hk.stop

/-- A new request knows what its worker knows. -/
theorem Knows.schedule {runtime : WorkerRuntime} {watcher : Watcher} (hk : Knows st s)
    (hw : s.scope w = .running runtime watcher) :
    Knows st (s.withTask n ⟨w, runtime, .scheduled⟩) := by
  have hr := hk.scope w
  rw [hw] at hr
  exact hk.withTask { runtime := hr, phase := trivial }

theorem Knows.withStop {c : Identity} {stop : Stop} (hk : Knows st s)
    (h : StopKnows s.service st stop) : Knows st (s.withStop c stop) where
  clean := hk.clean
  scope := hk.scope
  task := hk.task
  stop v := by
    by_cases he : v = c
    · subst he
      simpa [State.withStop] using h
    · simpa [State.withStop, he] using hk.stop v

theorem Knows.answer {client : Option Identity} {status : Nat} (hk : Knows st s) :
    Knows st (s.answer client status) := by
  cases client with
  | none => exact hk
  | some c =>
    simp only [State.answer]
    split
    · exact hk.withStop trivial
    · exact hk

theorem Knows.withFiles {f : Files} (hi : Service.Inv s.service)
    (hs : s.service.start st.process = some st)
    (h : Service.Step s.service .other (s.withFiles f).service) (hk : Knows st s) :
    Knows st (s.withFiles f) :=
  hk.service hi hs h nofun

/-- The record is the worker's own, and live: the request has the start's secret. -/
theorem TaskKnows.same {task : Task} {current : Record} (hk : TaskKnows t st task)
    (hp : task.phase = .read current) (hsame : current.pyEq task.runtime.service = true)
    (hlive : isLive t.os current = true) :
    TaskKnows t st { task with phase := .verified current } := by
  refine ⟨hk.runtime, fun hown => ?_⟩
  have hphase := hk.phase
  rw [hp] at hphase
  obtain ⟨hcur, htok⟩ := hphase hown
  have hrt := ofStart_of_pyEq hsame hown
  have hmaster : t.os.live st.process = true := by
    rw [← isLive_identity, ← hcur]
    exact hlive
  have hsecret : task.runtime.control_token = st.secret :=
    (htok hrt).resolve_right fun hd => absurd (hd.symm.trans hmaster) Bool.false_ne_true
  refine ⟨hcur, ?_⟩
  rw [← hsecret, ← (hk.runtime hrt).1]

theorem knows_step (hk : Known s) (h : Step s l s')
    (hne : l ≠ .service (.cleanFail st.process))
    (hkn : s.service.start st.process = some st → Knows st s)
    (hs' : s'.service.start st.process = some st) : Knows st s' := by
  have hi := hk.service
  have hother := refines hk h
  cases h with
  | service lab t h =>
    rcases start_cases h hs' with hs | ⟨rfl, hfresh⟩
    · exact (hkn hs).service hi hs h fun he => hne (congrArg Label.service he)
    · refine .begin hk hfresh ⟨fun hp => ?_, fun hp => ?_⟩ <;>
        exact absurd ((begin_pc h).symm.trans hp) nofun
  | publish | terminate | retire => exact (hkn hs').withFiles hi hs' hother
  | mark n task current sid hn hl hp =>
    have hfiles := (hkn hs').withFiles hi hs' hother
    have htask := hfiles.task n task hn
    refine hfiles.withTask ⟨htask.runtime, ?_⟩
    have hphase := htask.phase
    rw [hp] at hphase
    exact hphase
  | woken | tick => exact ⟨(hkn hs').clean, (hkn hs').scope, (hkn hs').task, (hkn hs').stop⟩
  | enter => exact (hkn hs').withScope (fromRuntime_read hi hs')
  | verify w service hl hw =>
    have := (hkn hs').scope w
    rw [hw] at this
    exact (hkn hs').withScope this
  | run w service token hl hw ht =>
    have hr := (hkn hs').scope w
    rw [hw] at hr
    exact (hkn hs').withScope (FromRuntime.withToken hi hs' (hkn hs').clean ht hr)
  | leave => exact (hkn hs').withScope trivial
  | retired w runtime hl hw | stays w runtime hl hw | stopped w runtime hl hw
  | again w runtime hl hw =>
    have := (hkn hs').scope w
    rw [hw] at this
    exact (hkn hs').withScope this
  | accept w n runtime watcher client hl hw =>
    rw [answer_service] at hs'
    exact ((hkn hs').schedule hw).answer
  | refuse =>
    rw [answer_service] at hs'
    exact (hkn hs').answer
  | background w n runtime watcher hl hw => exact (hkn hs').schedule hw
  | current n task hn hl hp =>
    have htask := (hkn hs').task n task hn
    refine (hkn hs').withTask ⟨htask.runtime, fun hown => ?_⟩
    obtain ⟨hcur, hnamed⟩ := fromRuntime_read hi hs' hown
    refine ⟨hcur, fun hrt => (htask.runtime hrt).2.imp_right fun ho => ?_⟩
    have hn : Names s.files st := hi.own _ st hs' hown
    exact ho.resolve_left fun hg => hg.1 hn
  | same n task current hn hl hp hsame hlive =>
    exact (hkn hs').withTask (((hkn hs').task n task hn).same hp hsame hlive)
  | abandon n task hn | signal n task _ _ _ hn =>
    exact (hkn hs').withTask ⟨((hkn hs').task n task hn).runtime, trivial⟩
  | record c => exact (hkn hs').withStop (fromRuntime_read hi hs')
  | running c record hl hc =>
    have := (hkn hs').stop c
    rw [hc] at this
    exact (hkn hs').withStop this
  | token c record token hl hc ht =>
    have hr := (hkn hs').stop c
    rw [hc] at hr
    exact (hkn hs').withStop (FromRuntime.withToken hi hs' (hkn hs').clean ht hr)
  | _ => exact (hkn hs').withStop trivial

/-! ## Who publishes -/

/-- The master of the start publishes its marker, or a request that has verified its record. -/
def Publishes (st : Start) (s : State) (l : Label) : Prop :=
  s.service.start st.process = some st ∧ (l = .terminate st.process ∨
    ∃ n task current, l = .mark n ∧ s.task n = some task ∧ task.phase = .verified current ∧
      ofStart (.object current) st)

/-- One start per `service_id`. -/
theorem process_of_id {st' : Start} (hk : Known s) (hs : s.service.start st.process = some st)
    (hs' : s.service.start p = some st') (hid : st'.service_id = st.service_id) :
    p = st.process :=
  hk.service.who.distinct p st.process st' st hs' hs hid

theorem marker_step (hk : Known s) (h : Step s l s')
    (hm : s'.service.start st.process = some st ∧ ofStart s'.files.shutdown st) :
    (s.service.start st.process = some st ∧ ofStart s.files.shutdown st) ∨ Publishes st s l := by
  obtain ⟨hs, hm⟩ := hm
  cases h with
  | service lab t h =>
    rcases start_cases h hs with hs | ⟨rfl, hfresh⟩
    · refine .inl ⟨hs, ?_⟩
      cases h with
      | unlinkShutdown | removeShutdown =>
        exact absurd (Service.ofStart_iff.mp hm) nofun
      | other => exact absurd rfl ‹_›
      | _ => exact hm
    · have hown : ofStart s.files.shutdown st := by
        rw [State.files, ← begin_files h]
        exact hm
      exact absurd (hk.markers.1 _ (Service.ofStart_iff.mp hown)) hfresh
  | mark n task current sid hn hl hp hsid =>
    have hsid' : ofStart (.object [("service_id", sid)]) st := hm
    rw [Service.ofStart_iff, serviceId_iff] at hsid'
    have hown : ofStart (.object current) st := by
      rw [Service.ofStart_iff, serviceId_iff]
      show Record.get current "service_id" = _
      rw [hsid, ← hsid']
      simp [readState, Record.get]
    exact .inr ⟨hs, .inr ⟨n, task, current, rfl, hn, hp, hown⟩⟩
  | terminate p st' hpc hs' =>
    have hid := Option.some.inj (Service.ofStart_iff.mp hm)
    obtain rfl := process_of_id hk hs hs' hid
    exact .inr ⟨hs, .inl rfl⟩
  | accept | refuse => exact .inl ⟨by simpa using hs, by simpa [State.files] using hm⟩
  | _ => exact .inl ⟨hs, hm⟩

/-- A worker is told to exit for a reload by the start's own watcher. -/
theorem reload_step (hk : Known s) (h : Step s l s')
    (hm : s'.service.start st.process = some st ∧ ofStart s'.files.reload st ∧
      NamesWorker (readState s'.files.reload) w) :
    (s.service.start st.process = some st ∧ ofStart s.files.reload st ∧
      NamesWorker (readState s.files.reload) w) ∨
    ∃ record, l = .retire st.process record ∧ NamesWorker record w := by
  obtain ⟨hs, hm, hw⟩ := hm
  cases h with
  | service lab t h =>
    rcases start_cases h hs with hs | ⟨rfl, hfresh⟩
    · refine .inl ⟨hs, ?_⟩
      cases h with
      | unlinkReload | removeReload => exact absurd (Service.ofStart_iff.mp hm) nofun
      | other => exact absurd rfl ‹_›
      | _ => exact ⟨hm, hw⟩
    · have hown : ofStart s.files.reload st := by
        rw [State.files, ← begin_files h]
        exact hm
      exact absurd (hk.markers.2 _ (Service.ofStart_iff.mp hown)) hfresh
  | retire p st' record hpc hs' hr hown =>
    have hown : ofStart (.object record) st' := hown
    have hid : st'.service_id = st.service_id :=
      Option.some.inj ((Service.ofStart_iff.mp hown).symm.trans (Service.ofStart_iff.mp hm))
    obtain rfl := process_of_id hk hs hs' hid
    exact .inr ⟨record, rfl, hw⟩
  | accept | refuse =>
    exact .inl ⟨by simpa using hs, by simpa [State.files] using hm, by simpa [State.files] using hw⟩
  | _ => exact .inl ⟨hs, hm, hw⟩

/-- A call of `request_shutdown` was made by its worker, in the body of its scope. -/
theorem task_step {runtime : WorkerRuntime} (h : Step s l s')
    (ht : ∃ task, s'.task n = some task ∧ task.process = w ∧ task.runtime = runtime) :
    (∃ task, s.task n = some task ∧ task.process = w ∧ task.runtime = runtime) ∨
    (∃ watcher, s.scope w = .running runtime watcher) ∧
      ((∃ client, l = .accept w n runtime.control_token client) ∨ l = .background w n) := by
  obtain ⟨task, ht, hw, hr⟩ := ht
  -- a call that moves on keeps its process and its runtime
  have moves {m : Nat} {old new : Task} (hm : s.task m = some old)
      (ht : Function.update s.task m (some new) n = some task)
      (hp : new.process = old.process) (hrt : new.runtime = old.runtime) :
      ∃ task, s.task n = some task ∧ task.process = w ∧ task.runtime = runtime := by
    by_cases he : n = m
    · subst he
      rw [Function.update_self] at ht
      obtain rfl := Option.some.inj ht
      exact ⟨old, hm, hp ▸ hw, hrt ▸ hr⟩
    · rw [Function.update_of_ne he] at ht
      exact ⟨task, ht, hw, hr⟩
  have starts {m : Nat} {v : Identity} {given : WorkerRuntime}
      (ht : Function.update s.task m (some ⟨v, given, .scheduled⟩) n = some task) :
      (∃ task, s.task n = some task ∧ task.process = w ∧ task.runtime = runtime) ∨
        m = n ∧ v = w ∧ given = runtime := by
    by_cases he : n = m
    · subst he
      rw [Function.update_self] at ht
      obtain rfl := Option.some.inj ht
      exact .inr ⟨rfl, hw, hr⟩
    · rw [Function.update_of_ne he] at ht
      exact .inl ⟨task, ht, hw, hr⟩
  cases h with
  | accept v m given watcher client hl hscope =>
    rw [answer_task] at ht
    rcases starts ht with h | ⟨rfl, rfl, rfl⟩
    · exact .inl h
    · exact .inr ⟨⟨watcher, hscope⟩, .inl ⟨client, rfl⟩⟩
  | background v m given watcher hl hscope =>
    rcases starts ht with h | ⟨rfl, rfl, rfl⟩
    · exact .inl h
    · exact .inr ⟨⟨watcher, hscope⟩, .inr rfl⟩
  | refuse =>
    rw [answer_task] at ht
    exact .inl ⟨task, ht, hw, hr⟩
  | current m old hm | same m old _ hm | abandon m old hm | mark m old _ _ hm
  | signal m old _ _ _ hm => exact .inl (moves hm ht rfl rfl)
  | _ => exact .inl ⟨task, ht, hw, hr⟩

/-! ## What keeps a marker -/

/-- Between the publication of the record and its removal. -/
def up : PC → Bool
  | .target | .pid | .serving | .check | .cleanup | .removeRuntime => true
  | _ => false

/-- Every request under way is for the start. -/
def Quiet (s : State) (st : Start) : Prop :=
  ∀ n task current, s.task n = some task →
    task.phase = .read current ∨ task.phase = .verified current → ofStart (.object current) st

/-- The service is up, and its shutdown is asked for. -/
structure Pending (st : Start) (s : State) : Prop where
  start : s.service.start st.process = some st
  up : up (s.service.pc st.process) = true
  named : Names s.files st
  marked : Service.shutdownRequested s.files st
  quiet : Quiet s st

/-- The master of the start removes its files, or one of its clean-up operations raises. -/
def CleansUp (st : Start) (l : Label) : Prop :=
  l = .service (.remove st.process) ∨ l = .service (.cleanFail st.process)

theorem inside_of_up {pc : PC} (h : up pc = true) : pc.inside = true := by
  cases pc <;> first | rfl | exact absurd h Bool.false_ne_true

/-- While a start is up no other master takes a step. -/
theorem up_step (hi : Service.Inv t) (hs : t.start st.process = some st)
    (hup : up (t.pc st.process) = true) (hn : Names t.files st) (h : Service.Step t lab t')
    (hl : lab ≠ .other) :
    (up (t'.pc st.process) = true ∧ t'.files.runtime = t.files.runtime ∧
      t'.files.shutdown = t.files.shutdown) ∨
    t'.os.live st.process = false ∨ lab = .remove st.process ∨ lab = .cleanFail st.process := by
  have hholder := hi.who.holder _ (inside_of_up hup)
  have alone {q : Identity} {pc : PC} (hpc : t.pc q = pc) (hin : pc.inside = true) :
      q = st.process := by
    by_contra hne
    have hout := hi.who.outside hholder hne
    rw [hpc] at hout
    exact Bool.false_ne_true (hout.symm.trans hin)
  cases h with
  | begin start hlive hpc hnew hfree => exact absurd (hholder.symm.trans hfree) nofun
  | other => exact absurd rfl hl
  | os k hk =>
    cases hlive : k.live st.process with
    | false => exact .inr (.inl hlive)
    | true => exact .inl ⟨by simpa [Service.State.withOs, hlive] using hup, rfl, rfl⟩
  | target q _ _ hpc | pid q hpc | cleanup q hpc =>
    obtain rfl := alone hpc rfl
    exact .inl ⟨by simp [Service.State.did, up], rfl, rfl⟩
  | leave q hpc =>
    obtain rfl := alone rfl (by unfold PC.inside; rw [hpc]; rfl)
    exact .inl ⟨by simp [up], rfl, rfl⟩
  | check q start hpc =>
    obtain rfl := alone hpc rfl
    exact .inl ⟨by simp [up], rfl, rfl⟩
  | checkOther q start hpc hs' hown =>
    obtain rfl := alone hpc rfl
    obtain rfl := Option.some.inj (hs.symm.trans hs')
    exact absurd hn.ofStart hown
  | cleanFail q hpc =>
    obtain rfl := alone rfl (by unfold PC.inside; rw [hpc, Bool.or_true]; rfl)
    exact .inr (.inr (.inr rfl))
  | removeRuntime q hpc =>
    obtain rfl := alone hpc rfl
    exact .inr (.inr (.inl rfl))
  | unlinkShutdown q hpc | unlinkReload q hpc | touch q hpc | restrict q _ hpc | truncate q hpc
  | write q _ _ hpc | publish q _ hpc | writeFail q _ _ hpc | removeShutdown q hpc
  | removeReload q hpc | removeControl q _ hpc | removeObservation q _ _ _ hpc
  | keepObservation q _ _ _ hpc | observed q hpc | removePid q hpc | removeToken q hpc
  | unlock q _ hpc =>
    obtain rfl := alone hpc rfl
    rw [hpc] at hup
    exact absurd hup Bool.false_ne_true

theorem Quiet.withTask {task : Task} (hq : Quiet s st)
    (h : ∀ current, task.phase = .read current ∨ task.phase = .verified current →
      ofStart (.object current) st) : Quiet (s.withTask n task) st := by
  intro m task' current hm hp
  by_cases he : m = n
  · subst he
    obtain rfl : task = task' := by simpa [State.withTask] using hm
    exact h current hp
  · exact hq m task' current (by simpa [State.withTask, he] using hm) hp

theorem Pending.answer {client : Option Identity} {status : Nat} (hp : Pending st s) :
    Pending st (s.answer client status) := by
  cases client with
  | none => exact hp
  | some c =>
    simp only [State.answer]
    split
    · exact ⟨hp.start, hp.up, hp.named, hp.marked, hp.quiet⟩
    · exact hp

theorem pending_step (hk : Known s) (h : Step s l s') (hp : Pending st s) :
    (Pending st s' ∨ s'.live st.process = false) ∨ CleansUp st l := by
  obtain ⟨hs, hup, hn, hm, hq⟩ := hp
  have hi := hk.service
  cases h with
  | service lab t h hl =>
    rcases up_step hi hs hup hn h hl with ⟨hup', hr, hm'⟩ | hd | rfl | rfl
    · have hn' : Names t.files st := hr.trans hn
      have hm' : Service.shutdownRequested t.files st := by
        unfold Service.shutdownRequested
        rw [hm']
        exact hm
      exact .inl (.inl ⟨Service.start_step h hs, hup', hn', hm', hq⟩)
    · exact .inl (.inr hd)
    · exact .inr (.inl rfl)
    · exact .inr (.inr rfl)
  | terminate p st' hpc hs' =>
    -- the master that is up is the only one that serves
    have hp : p = st.process := by
      by_contra hne
      have hout := hi.who.outside (hi.who.holder _ (inside_of_up hup)) hne
      rw [hpc] at hout
      exact absurd hout nofun
    subst hp
    obtain rfl := Option.some.inj (hs.symm.trans hs')
    exact .inl (.inl ⟨hs, hup, hn, Service.ofStart_iff.mpr rfl, hq⟩)
  | mark m task current sid hm' hl hp hsid =>
    have hown := hq m task current hm' (.inr hp)
    rw [Service.ofStart_iff, serviceId_iff] at hown
    obtain rfl := Option.some.inj (hsid.symm.trans hown)
    exact .inl (.inl ⟨hs, hup, hn, Service.ofStart_iff.mpr rfl, hq.withTask nofun⟩)
  | current m task hm' hl hp =>
    refine .inl (.inl ⟨hs, hup, hn, hm, hq.withTask fun current h => ?_⟩)
    obtain rfl : readState s.files.runtime = current := by simpa using h
    exact hn.ofStart
  | same m task current hm' hl hp =>
    refine .inl (.inl ⟨hs, hup, hn, hm, hq.withTask fun current' h => ?_⟩)
    obtain rfl : current = current' := by simpa using h
    exact hq m task current hm' (.inl hp)
  | abandon | signal => exact .inl (.inl ⟨hs, hup, hn, hm, hq.withTask nofun⟩)
  | background => exact .inl (.inl ⟨hs, hup, hn, hm, hq.withTask nofun⟩)
  | accept w m runtime watcher client =>
    have hscheduled : Pending st (s.withTask m ⟨w, runtime, .scheduled⟩) :=
      ⟨hs, hup, hn, hm, hq.withTask nofun⟩
    exact .inl (.inl hscheduled.answer)
  | refuse => exact .inl (.inl (Pending.answer ⟨hs, hup, hn, hm, hq⟩))
  | _ => exact .inl (.inl ⟨hs, hup, hn, hm, hq⟩)

/-! ## Runs -/

section Runs

variable {r : Run Step} {i j : Nat}

/-- The step `k` of the run is a request under the start's secret at a worker of the start, or the
journal pump of such a worker giving up. -/
def Asked (r : Run Step) (st : Start) (k : Nat) : Prop :=
  ∃ w n watcher, (r.state k).scope w = .running ⟨st.identity, st.secret⟩ watcher ∧
    ((∃ client, r.label k = .accept w n st.secret client) ∨ r.label k = .background w n)

/-- What a shutdown of the start goes back to before `i`. -/
def Cause (r : Run Step) (st : Start) (i : Nat) : Prop :=
  ∃ k, k < i ∧ (Asked r st k ∨ r.label k = .terminate st.process)

/-- The clean-up of the start raises nowhere. -/
def CleanExit (r : Run Step) (st : Start) : Prop :=
  ∀ k, k < r.length → r.label k ≠ .service (.cleanFail st.process)

theorem Run.knows (h0 : Init (r.state 0)) (hclean : CleanExit r st) (hi : i ≤ r.length)
    (hs : (r.state i).service.start st.process = some st) : Knows st (r.state i) := by
  have hinit : (r.state 0).service.start st.process = some st → Knows st (r.state 0) :=
    fun hs => absurd ((h0.service.start _).symm.trans hs) nofun
  exact (r.within fun i hi => Run.known r h0 hi).invariant_of
    (P := fun s => s.service.start st.process = some st → Knows st s)
    (C := fun _ l => l ≠ .service (.cleanFail st.process)) hinit hclean
    (fun _ _ _ h hne hkn => knows_step h.1 h.2 hne hkn) i hi hs

/-- A request that has verified the start's record was asked for. -/
theorem asked_of_task {task : Task} (h0 : Init (r.state 0)) (hi : i ≤ r.length)
    (hn : (r.state i).task n = some task) (hr : task.runtime = ⟨st.identity, st.secret⟩) :
    ∃ k, k < i ∧ Asked r st k := by
  have h0' : ¬ ∃ task', (r.state 0).task n = some task' ∧ task'.process = task.process ∧
      task'.runtime = ⟨st.identity, st.secret⟩ := by
    rintro ⟨task', h, -⟩
    exact absurd ((h0.task n).symm.trans h) nofun
  obtain ⟨k, hk, ⟨watcher, hw⟩, hl⟩ := r.caused (P := fun s => ∃ task', s.task n = some task' ∧
      task'.process = task.process ∧ task'.runtime = ⟨st.identity, st.secret⟩)
    (E := fun s l => (∃ watcher, s.scope task.process =
        .running ⟨st.identity, st.secret⟩ watcher) ∧
      ((∃ client, l = .accept task.process n st.secret client) ∨ l = .background task.process n))
    (fun _ _ _ h ht => task_step h ht) h0' hi ⟨task, hn, rfl, hr⟩
  exact ⟨k, hk, task.process, n, watcher, hw, hl⟩

theorem cause_of_marker (h0 : Init (r.state 0)) (hclean : CleanExit r st) (hi : i ≤ r.length)
    (hs : (r.state i).service.start st.process = some st)
    (hm : ofStart (r.state i).files.shutdown st) : Cause r st i := by
  have h0' : ¬ ((r.state 0).service.start st.process = some st ∧
      ofStart (r.state 0).files.shutdown st) :=
    fun h => absurd ((h0.service.start _).symm.trans h.1) nofun
  obtain ⟨k, hk, hsk, hl | ⟨n, task, current, hl, hn, hp, hown⟩⟩ :=
    (r.within fun i hi => Run.known r h0 hi).caused
      (P := fun s => s.service.start st.process = some st ∧ ofStart s.files.shutdown st)
      (E := Publishes st) (fun _ _ _ h hm => marker_step h.1 h.2 hm) h0' hi ⟨hs, hm⟩
  · exact ⟨k, hk, .inr hl⟩
  · have hki : k ≤ r.length := hk.le.trans hi
    have hphase := ((Run.knows h0 hclean hki hsk).task n task hn).phase
    rw [hp] at hphase
    obtain ⟨k', hk', hasked⟩ := asked_of_task h0 hki hn (hphase hown).2
    exact ⟨k', hk'.trans hk, .inl hasked⟩

/-- The bridge's test of the marker, on the start's own record. -/
theorem shutdownRequested_identity {file : Stored} :
    shutdownRequested file st.identity ↔ ofStart file st := by
  unfold shutdownRequested ofStart
  rw [Service.identity_service_id]
  constructor
  · rintro ⟨sid, hsid, h⟩
    obtain rfl := Option.some.inj hsid
    cases hget : (readState file).get "service_id" with
    | none =>
      rw [hget] at h
      exact absurd h (by simp [Value.pyEq, Value.number?])
    | some v =>
      rw [hget] at h
      exact ⟨v, rfl, h⟩
  · rintro ⟨v, hv, h⟩
    refine ⟨_, rfl, ?_⟩
    rw [hv]
    exact h

/-- The process that the start's record names. -/
theorem process_of_record {os : Processes} {m : Identity} (hl : os.live st.process = true)
    (hm : recordIdentity? st.identity = some m) : m = st.process := by
  have h := isLive_identity os st
  unfold isLive at h
  rw [hm, hl] at h
  have hpos := Processes.pos_of_live hl
  have hrec : recordIdentity? st.identity = some st.process := by
    simp [recordIdentity?, Start.identity, processIdentity, Record.get, List.lookup_cons,
      creationTime?, hpos]
  exact Option.some.inj (hm.symm.trans hrec)

/-- What shuts a start down, over a whole run. -/
structure Authentic (r : Run Step) (st : Start) : Prop where
  /-- The marker of the start. -/
  marker : ∀ i, i ≤ r.length → (r.state i).service.start st.process = some st →
    Service.shutdownRequested (r.state i).files st → Cause r st i
  /-- Its master leaves the native manager. -/
  woken : ∀ i, i < r.length → (r.state i).service.start st.process = some st →
    r.label i = .woken st.process → Cause r st i
  /-- One of its workers leaves the native server. -/
  stopped : ∀ i w, i < r.length → (r.state i).service.start st.process = some st →
    (∀ runtime watcher, (r.state i).scope w = .running runtime watcher →
      runtime.service = st.identity) → r.label i = .stopped w → Cause r st i
  /-- A request that has verified its record signals its master, unless that is dead and its pid is
  another's. -/
  signal : ∀ i n target, i < r.length → (r.state i).service.start st.process = some st →
    (∀ task current, (r.state i).task n = some task → task.phase = .marked current →
      ofStart (.object current) st) →
    r.label i = .signal n target → Cause r st i ∧
      (target = st.process ∨ (r.state i).live st.process = false)
  /-- A worker retires for a reload when the start's own master has named exactly that process. -/
  retired : ∀ i w, i < r.length → (r.state i).service.start st.process = some st →
    (∀ runtime watcher, (r.state i).scope w = .running runtime watcher →
      runtime.service = st.identity) → r.label i = .retired w →
    ∃ k record, k < i ∧ r.label k = .retire st.process record ∧ NamesWorker record w
  /-- The command sends the start's secret, or the start has ended since it read the record. -/
  sends : ∀ i c record token, i ≤ r.length → (r.state i).service.start st.process = some st →
    (r.state i).stop c = .sending record token → ofStart (.object record) st →
    token = st.secret ∨ Over (r.state i).service st

/-- **A start is shut down on its own account only**, whatever other starts, workers, programs and
commands do meanwhile. -/
theorem shutdown_authentic (r : Run Step) (h0 : Init (r.state 0)) (hclean : CleanExit r st) :
    Authentic r st where
  marker i hi hs hm := cause_of_marker h0 hclean hi hs hm
  woken i hi hs hl := by
    have hstep := r.step_ok i hi
    rw [hl] at hstep
    generalize r.state (i + 1) = s' at hstep
    cases hstep with
    | woken _ st' hpc hs' hr hreq =>
      obtain rfl := Option.some.inj (hs.symm.trans hs')
      exact cause_of_marker h0 hclean hi.le hs hreq
  stopped i w hi hs hrec hl := by
    have hstep := r.step_ok i hi
    rw [hl] at hstep
    generalize r.state (i + 1) = s' at hstep
    cases hstep with
    | stopped _ runtime hlive hw hreq =>
      rw [hrec runtime _ hw, shutdownRequested_identity] at hreq
      exact cause_of_marker h0 hclean hi.le hs hreq
  signal i n target hi hs hrec hl := by
    have hstep := r.step_ok i hi
    rw [hl] at hstep
    generalize r.state (i + 1) = s' at hstep
    cases hstep with
    | signal _ task current master _ hn hlive hp hr hm ht htl =>
      have hphase := ((Run.knows h0 hclean hi.le hs).task n task hn).phase
      rw [hp] at hphase
      obtain ⟨rfl, hruntime⟩ := hphase (hrec task current hn hp)
      obtain ⟨k, hk, hasked⟩ := asked_of_task h0 hi.le hn hruntime
      refine ⟨⟨k, hk, .inl hasked⟩, ?_⟩
      cases hmaster : (r.state i).live st.process with
      | false => exact .inr rfl
      | true =>
        rw [process_of_record hmaster hm] at ht
        exact .inl (Processes.live_unique htl hmaster ht)
  retired i w hi hs hrec hl := by
    have hstep := r.step_ok i hi
    rw [hl] at hstep
    generalize r.state (i + 1) = s' at hstep
    cases hstep with
    | retired _ runtime hlive hw hreq =>
      obtain ⟨hreq, hnames⟩ := hreq
      rw [hrec runtime _ hw, shutdownRequested_identity] at hreq
      have h0' : ¬ ((r.state 0).service.start st.process = some st ∧
          ofStart (r.state 0).files.reload st ∧
          NamesWorker (readState (r.state 0).files.reload) w) :=
        fun h => absurd ((h0.service.start _).symm.trans h.1) nofun
      obtain ⟨k, hk, record, hlk, hnk⟩ := (r.within fun i hi => Run.known r h0 hi).caused
        (P := fun s => s.service.start st.process = some st ∧ ofStart s.files.reload st ∧
          NamesWorker (readState s.files.reload) w)
        (E := fun _ l => ∃ record, l = .retire st.process record ∧ NamesWorker record w)
        (fun _ _ _ h hm => reload_step h.1 h.2 hm) h0' hi.le ⟨hs, hreq, hnames⟩
      exact ⟨k, record, hk, hlk, hnk⟩
  sends i c record token hi hs hc hown := by
    have hstop := (Run.knows h0 hclean hi hs).stop c
    rw [hc] at hstop
    exact (hstop hown).2

/-- **No accepted shutdown is lost**: from a moment at which no request for another start is under
way, the marker stays until the start's own master cleans up or dies. -/
theorem marker_kept (r : Run Step) (h0 : Init (r.state 0)) (hij : i ≤ j) (hj : j ≤ r.length)
    (hp : Pending st (r.state i)) :
    Service.shutdownRequested (r.state j).files st ∨ (r.state j).live st.process = false ∨
      ∃ k, i ≤ k ∧ k < j ∧ CleansUp st (r.label k) := by
  have hkept := (r.within fun i hi => Run.known r h0 hi).holds_unless
    (P := fun s => Pending st s ∨
      (s.service.start st.process = some st ∧ s.live st.process = false))
    (E := fun _ l => CleansUp st l) (fun s l s' h hp => ?_) hij hj (.inl hp)
  · rcases hkept with (hp | ⟨-, hd⟩) | hk
    · exact .inl hp.marked
    · exact .inr (.inl hd)
    · exact .inr (.inr hk)
  · obtain ⟨hk, h⟩ := h
    have hservice := refines hk h
    rcases hp with hp | ⟨hs, hd⟩
    · exact (pending_step hk h hp).imp_left fun hp' =>
        hp'.imp_right fun hd => ⟨Service.start_step hservice hp.start, hd⟩
    · exact .inl (.inr ⟨Service.start_step hservice hs, dead_step hk.service hs hservice hd⟩)

end Runs

/-! ## A service that is stopped -/

def served : Start :=
  ⟨⟨1, 0⟩, "first", "alpha",
    [("runtime", .str "uvicorn"), ("graceful_timeout_seconds", .int 30)]⟩

/-- The master `1` serves, the worker `7` is in its body, and the command `9` has its token
accepted; the request publishes the marker, and the worker stops. -/
def stopping : Run Step :=
  let r := Run.start Step
    { service :=
        { os := .ofList [⟨1, 0⟩, ⟨7, 0⟩, ⟨9, 0⟩]
          lock := none
          files :=
            { runtime := .absent, token := none, shutdown := .absent, reload := .absent
              control := .absent, observations := fun _ => .absent, pid := none }
          start := fun _ => none, ids := ∅, pc := fun _ => .idle }
      scope := fun _ => .outside, task := fun _ => none, stop := fun _ => .idle, now := 0 } .tick
  let r := r.snoc (.service _ _ _ (.begin _ served rfl rfl rfl rfl id) nofun)
  let r := r.snoc (.service _ _ _ (.unlinkShutdown _ ⟨1, 0⟩ rfl) nofun)
  let r := r.snoc (.service _ _ _ (.unlinkReload _ ⟨1, 0⟩ rfl) nofun)
  let r := r.snoc (.service _ _ _ (.touch _ ⟨1, 0⟩ rfl) nofun)
  let r := r.snoc (.service _ _ _ (.restrict _ ⟨1, 0⟩ _ rfl rfl) nofun)
  let r := r.snoc (.service _ _ _ (.truncate _ ⟨1, 0⟩ rfl) nofun)
  let r := r.snoc (.service _ _ _ (.write _ ⟨1, 0⟩ served _ rfl rfl rfl) nofun)
  let r := r.snoc (.service _ _ _ (.publish _ ⟨1, 0⟩ served rfl rfl) nofun)
  let r := r.snoc (.service _ _ _ (.target _ ⟨1, 0⟩ served false rfl rfl) nofun)
  let r := r.snoc (.service _ _ _ (.pid _ ⟨1, 0⟩ rfl) nofun)
  let r := r.snoc (.enter _ ⟨7, 0⟩ rfl rfl)
  let r := r.snoc (.verify _ ⟨7, 0⟩ served.identity rfl rfl rfl)
  let r := r.snoc (.run _ ⟨7, 0⟩ served.identity ⟨true, "alpha"⟩ rfl rfl rfl)
  let r := r.snoc (.record _ ⟨9, 0⟩ rfl rfl)
  let r := r.snoc (.running _ ⟨9, 0⟩ served.identity rfl rfl rfl)
  let r := r.snoc (.token _ ⟨9, 0⟩ served.identity ⟨true, "alpha"⟩ rfl rfl rfl)
  let r := r.snoc (.accept _ ⟨7, 0⟩ 0 ⟨served.identity, "alpha"⟩ .reload (some ⟨9, 0⟩) rfl rfl rfl
    (by
      intro c hc
      obtain rfl := Option.some.inj hc
      exact ⟨rfl, served.identity, rfl⟩))
  let r := r.snoc (.current _ 0 ⟨⟨7, 0⟩, ⟨served.identity, "alpha"⟩, .scheduled⟩ rfl rfl rfl)
  let r := r.snoc (.same _ 0 ⟨⟨7, 0⟩, ⟨served.identity, "alpha"⟩, .read served.identity⟩
    served.identity rfl rfl rfl rfl rfl)
  let r := r.snoc (.mark _ 0 ⟨⟨7, 0⟩, ⟨served.identity, "alpha"⟩, .verified served.identity⟩
    served.identity (.str "first") rfl rfl rfl rfl)
  let r := r.snoc (.stays _ ⟨7, 0⟩ ⟨served.identity, "alpha"⟩ rfl rfl (by
    rintro ⟨-, p, c, hp, -⟩
    exact absurd hp nofun))
  r.snoc (.stopped _ ⟨7, 0⟩ ⟨served.identity, "alpha"⟩ rfl rfl
    (shutdownRequested_identity.mpr (Service.ofStart_iff.mpr rfl)))

theorem stopping_init : Init (stopping.state 0) :=
  ⟨⟨rfl, fun _ => rfl, fun _ => rfl, nofun, nofun, nofun⟩, fun _ => rfl, fun _ => rfl, fun _ => rfl⟩

theorem stopping_clean : CleanExit stopping served := by
  intro k hk
  have hk : k < 22 := hk
  interval_cases k <;> exact nofun

theorem shutdown_authentic_stopping :
    stopping.label 21 = .stopped ⟨7, 0⟩ ∧ Cause stopping served 21 := by
  have hrec (runtime : WorkerRuntime) (watcher : Watcher)
      (h : (stopping.state 21).scope ⟨7, 0⟩ = .running runtime watcher) :
      runtime.service = served.identity := by
    have hw : (stopping.state 21).scope ⟨7, 0⟩ =
        .running ⟨served.identity, "alpha"⟩ .shutdown := rfl
    obtain ⟨rfl, -⟩ := Scope.running.inj (h.symm.trans hw)
    rfl
  exact ⟨rfl, (shutdown_authentic stopping stopping_init stopping_clean).stopped 21 ⟨7, 0⟩
    (by decide) rfl hrec rfl⟩

theorem stopping_pending : Pending served (stopping.state 20) where
  start := rfl
  up := rfl
  named := rfl
  marked := Service.ofStart_iff.mpr rfl
  quiet n task current hn hp := by
    cases n with
    | zero =>
      obtain rfl := Option.some.inj hn
      rcases hp with hp | hp <;> exact absurd hp nofun
    | succ n => exact absurd hn nofun

theorem marker_kept_stopping :
    Service.shutdownRequested (stopping.state 22).files served := by
  have h := marker_kept stopping stopping_init (i := 20) (j := 22) (by decide) le_rfl
    stopping_pending
  rcases h with h | h | ⟨k, hk, hk', hclean⟩
  · exact h
  · exact absurd h (by decide)
  · have : k = 20 ∨ k = 21 := by omega
    rcases this with rfl | rfl <;> rcases hclean with h | h <;> exact absurd h nofun

end LclFastapi.Runtime.Shutdown
