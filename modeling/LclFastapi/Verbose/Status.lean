import LclFastapi.Verbose.Caches
import Mathlib.Data.List.Sort

/-!
# What a status call reports (`FileVerboseControl.status`, `process_observations`)

A status call reads the target, lists the observation files and then reads them one after another,
while every process of the service goes on updating and refreshing. It changes nothing, so a call is
a set of moments in a run of the target: one for the target, one for the listing, and two for each
file, the read and the liveness test (`Scan`).

* **`status_faithful`**: the reported target was the target during the call; every reported process
  was live during the call, after publishing exactly what is reported, which is nothing the target
  does not allow; a process that lives through the call with a receipt at its beginning is reported,
  at no older revision; the processes are in strict order of their pids; and of two calls one after
  the other the second reports no process at an older revision.

The hypotheses are those of `caches_coherent` for every process: a fresh start, and the refreshes of
each process one after another.
-/

namespace LclFastapi.Verbose

open Lib (Identity Processes Task Run)
open LclFastapi.Runtime (OfService Stored Value creationTime? isLive processIdentity readState
  recordIdentity?)

variable {sid : String} {s s' : State} {l : Label} {c d : FileVerboseState} {id : Identity}

/-! ## Observations -/

/-- `FileVerboseProcess`. -/
structure FileVerboseProcess where
  role : String
  pid : Nat
  enabled : Bool
  revision : Nat
  observed_at : ℚ
  deriving DecidableEq

/-- The fields of a record, when they have the accepted types. -/
def fileVerboseProcess? (record : Runtime.Record) : Option FileVerboseProcess :=
  match record.get "role", record.get "enabled", record.get "revision",
    (record.get "observed_at").bind creationTime?, recordIdentity? record with
  | some (.str role), some (.bool enabled), some (.int revision), some observed_at, some id =>
    if (role = "controller" ∨ role = "api") ∧ 0 ≤ revision then
      some ⟨role, id.pid, enabled, revision.toNat, observed_at⟩
    else none
  | _, _, _, _, _ => none

/-- What `process_observations` makes of one record. -/
def processObservation (os : Processes) (service_id : String) (record : Runtime.Record) :
    Option FileVerboseProcess :=
  if (record.get "service_id").any (·.pyEq (.str service_id)) && isLive os record then
    fileVerboseProcess? record
  else none

/-- The loop of `process_observations` from the moment `i` to the moment `j` of a run: each file is
read at one moment, and its process is looked up at that or a later one. -/
inductive Scan (r : Run (Step sid)) : Nat → List Nat → List FileVerboseProcess → Nat → Prop
  | nil {i j : Nat} (hij : i ≤ j) : Scan r i [] [] j
  | cons {i m k j pid : Nat} {todo : List Nat} {result : List FileVerboseProcess} (him : i ≤ m)
      (hmk : m ≤ k) (h : Scan r k todo result j) :
      Scan r i (pid :: todo)
        ((processObservation (r.state k).os sid
          (readState ((r.state m).observations pid))).toList ++ result) j

/-- A call of `status` from the moment `i` to the moment `j` of a run, with what it returns. -/
structure StatusCall (r : Run (Step sid)) (i j : Nat) (target : FileVerboseState)
    (processes : List FileVerboseProcess) : Prop where
  call : ∃ t g todo result, i ≤ t ∧ t ≤ g ∧ readTarget sid (r.state t).target = some target ∧
    todo.Nodup ∧ (∀ pid, pid ∈ todo ↔ (r.state g).observations pid ≠ .absent) ∧
    Scan r g todo result j ∧ processes = result.mergeSort fun a b => a.pid ≤ b.pid

/-! ## The files of a start -/

/-- Every file that names this start is a receipt of the process with its pid. -/
def Owned (sid : String) (s : State) : Prop :=
  ∀ pid, OfService (.str sid) (readState (s.observations pid)) →
    ∃ id c, id.pid = pid ∧ Published sid id s c

theorem owned_step (ho : Owned sid s) (h : Step sid s l s') : Owned sid s' := by
  intro pid hown
  rcases observation_step h with he | ⟨t, current, role, x, -, -, -, -, he⟩
  · rw [he] at hown
    obtain ⟨id, c, hid, role, x, hc⟩ := ho pid hown
    exact ⟨id, c, hid, role, x, by rw [he]; exact hc⟩
  · by_cases hpid : pid = t.process.pid
    · subst hpid
      exact ⟨t.process, current, rfl, role, x, by rw [he, Function.update_self]⟩
    · rw [he, Function.update_of_ne hpid] at hown
      obtain ⟨id, c, rfl, role, x, hc⟩ := ho pid hown
      exact ⟨id, c, rfl, role, x, by rw [he, Function.update_of_ne hpid]; exact hc⟩

/-- The process of a receipt is the one that wrote it. -/
theorem recordIdentity_observation {role : String} {x : ℚ} (hpos : 0 < id.pid) :
    recordIdentity? (observationRecord id sid role c x) = some id := by
  simp [recordIdentity?, observationRecord, processIdentity, Runtime.Record.get, List.lookup_cons,
    creationTime?, hpos]

theorem isLive_observation {os : Processes} {role : String} {x : ℚ} :
    isLive os (observationRecord id sid role c x) = os.live id := by
  unfold isLive
  by_cases hpos : 0 < id.pid
  · rw [recordIdentity_observation hpos]
  · have hdead : os.live id = false := eq_false_of_ne_true (mt Processes.pos_of_live hpos)
    simp [recordIdentity?, observationRecord, processIdentity, Runtime.Record.get, List.lookup_cons,
      creationTime?, hpos, hdead]

/-- What is reported of a receipt. -/
theorem processObservation_observation {os : Processes} {role : String} {x : ℚ} :
    processObservation os sid (observationRecord id sid role c x) =
      if os.live id = true ∧ (role = "controller" ∨ role = "api") then
        some ⟨role, id.pid, c.enabled, c.revision, x⟩
      else none := by
  unfold processObservation
  rw [isLive_observation]
  cases hl : os.live id with
  | false => simp
  | true =>
    have hpos := Processes.pos_of_live hl
    unfold fileVerboseProcess?
    rw [recordIdentity_observation hpos]
    simp [observationRecord, processIdentity, Runtime.Record.get, List.lookup_cons, creationTime?,
      Value.pyEq, Value.number?]

/-! ## The loop -/

section Runs

variable {r : Run (Step sid)} {i j k m pid : Nat} {todo : List Nat}
  {result : List FileVerboseProcess} {p : FileVerboseProcess}

/-- The process `id` published what is reported at a moment of the call, and was live later on. -/
def Witness (r : Run (Step sid)) (i j : Nat) (p : FileVerboseProcess) (id : Identity) : Prop :=
  p.pid = id.pid ∧ ∃ m k, i ≤ m ∧ m ≤ k ∧ k ≤ j ∧ (r.state m).observations id.pid =
    .object (observationRecord id sid p.role ⟨p.enabled, p.revision⟩ p.observed_at) ∧
    (r.state k).os.live id = true

theorem Scan.le (h : Scan r i todo result j) : i ≤ j := by
  induction h with
  | nil hij => exact hij
  | cons him hmk _ ih => exact him.trans (hmk.trans ih)

/-- What is made of a file of the start. -/
theorem report_cases (ho : Owned sid (r.state m))
    (hp : processObservation (r.state k).os sid (readState ((r.state m).observations pid)) =
      some p) :
    p.pid = pid ∧ ∃ id, id.pid = pid ∧ (r.state m).observations pid =
      .object (observationRecord id sid p.role ⟨p.enabled, p.revision⟩ p.observed_at) ∧
      (r.state k).os.live id = true := by
  have hown : OfService (.str sid) (readState ((r.state m).observations pid)) := by
    unfold processObservation at hp
    split at hp
    · rename_i h
      rw [Bool.and_eq_true, Option.any_eq_true] at h
      exact h.1
    · exact absurd hp nofun
  obtain ⟨id, c, hid, role, x, hc⟩ := ho pid hown
  subst hid
  rw [hc, readState, processObservation_observation] at hp
  split at hp
  · rename_i h
    obtain rfl := Option.some.inj hp
    exact ⟨rfl, id, rfl, hc, h.1⟩
  · exact absurd hp nofun

theorem Scan.sound (ho : ∀ m, m ≤ r.length → Owned sid (r.state m)) (hj : j ≤ r.length)
    (h : Scan r i todo result j) (hp : p ∈ result) : ∃ id, Witness r i j p id := by
  induction h with
  | nil => exact absurd hp List.not_mem_nil
  | @cons i m k j pid todo result him hmk h ih =>
    rcases List.mem_append.mp hp with hp | hp
    · have hmj : m ≤ j := hmk.trans h.le
      obtain ⟨hpid, id, rfl, hc, hl⟩ := report_cases (ho m (hmj.trans hj)) (Option.mem_toList.mp hp)
      exact ⟨id, hpid, m, k, him, hmk, h.le, hc, hl⟩
    · obtain ⟨id, hid, m', k', hkm', hmk', hkj, hc, hl⟩ := ih hj hp
      exact ⟨id, hid, m', k', (him.trans hmk).trans hkm', hmk', hkj, hc, hl⟩

/-- One report for a file at most, in the order of the files. -/
theorem Scan.pids (ho : ∀ m, m ≤ r.length → Owned sid (r.state m)) (hj : j ≤ r.length)
    (h : Scan r i todo result j) : (result.map (·.pid)).Sublist todo := by
  induction h with
  | nil => exact .refl _
  | @cons i m k j pid todo result him hmk h ih =>
    have hm : m ≤ r.length := (hmk.trans h.le).trans hj
    cases hp : processObservation (r.state k).os sid (readState ((r.state m).observations pid)) with
    | none => exact (ih hj).cons pid
    | some p =>
      obtain ⟨rfl, -⟩ := report_cases (ho m hm) hp
      exact (ih hj).cons_cons p.pid

/-- Every listed file is visited. -/
theorem Scan.visits (h : Scan r i todo result j) (hpid : pid ∈ todo) :
    ∃ m k, i ≤ m ∧ m ≤ k ∧ k ≤ j ∧ ∀ p,
      processObservation (r.state k).os sid (readState ((r.state m).observations pid)) = some p →
        p ∈ result := by
  induction h with
  | nil => exact absurd hpid List.not_mem_nil
  | @cons i m k j pid' todo result him hmk h ih =>
    rcases List.mem_cons.mp hpid with rfl | hpid
    · exact ⟨m, k, him, hmk, h.le, fun p hp => by simp [hp]⟩
    · obtain ⟨m', k', hkm', hmk', hkj, hp⟩ := ih hpid
      exact ⟨m', k', (him.trans hmk).trans hkm', hmk', hkj,
        fun p h => List.mem_append_right _ (hp p h)⟩

/-! ## Calls -/

/-- What status calls report, over a whole run of the target. -/
structure Faithful (r : Run (Step sid)) : Prop where
  target : ∀ i j a ps, StatusCall r i j a ps → j ≤ r.length →
    ∃ t, i ≤ t ∧ t ≤ j ∧ Reads sid (r.state t) a
  reported : ∀ i j a ps p, StatusCall r i j a ps → j ≤ r.length → p ∈ ps →
    ∃ id, Witness r i j p id
  /-- What is reported was the target, and the target has not gone back since. -/
  past : ∀ i j a ps p b, StatusCall r i j a ps → j ≤ r.length → p ∈ ps →
    Reads sid (r.state j) b → Past r j ⟨p.enabled, p.revision⟩ ∧ p.revision ≤ b.revision
  complete : ∀ i j a ps id c, StatusCall r i j a ps → j ≤ r.length →
    Published sid id (r.state i) c → (∀ m, i ≤ m → m ≤ j → (r.state m).os.live id = true) →
    ∃ p ∈ ps, Witness r i j p id ∧ c.revision ≤ p.revision
  ordered : ∀ i j a ps, StatusCall r i j a ps → j ≤ r.length → ps.Pairwise (·.pid < ·.pid)
  /-- The next call reports no process at an older revision. -/
  mono : ∀ i j i' j' p p' id, j ≤ i' → j' ≤ r.length → Witness r i j p id →
    Witness r i' j' p' id → p.revision ≤ p'.revision

theorem Witness.published (h : Witness r i j p id) : ∃ m, i ≤ m ∧ m ≤ j ∧
    Published sid id (r.state m) ⟨p.enabled, p.revision⟩ := by
  obtain ⟨-, m, k, him, hmk, hkj, hc, -⟩ := h
  exact ⟨m, him, hmk.trans hkj, p.role, p.observed_at, hc⟩

/-- A published target, and no file that names this start. -/
structure Unused (sid : String) (s : State) : Prop where
  init : Init sid s
  unowned : ∀ pid, ¬ OfService (.str sid) (readState (s.observations pid))

theorem Unused.fresh (h : Unused sid s) : Fresh sid s where
  init := h.init
  unobserved id c hc := by
    obtain ⟨role, x, hc⟩ := hc
    refine h.unowned id.pid ⟨.str sid, ?_, by simp [Value.pyEq, Value.number?]⟩
    rw [hc]
    simp [readState, observationRecord, processIdentity, Runtime.Record.get, List.lookup_cons]

/-- Control objects are made with `Literal["controller", "api"]`. -/
def Roles (r : Run (Step sid)) : Prop :=
  ∀ i id role c x, i ≤ r.length → (r.state i).observations id.pid =
    .object (observationRecord id sid role c x) → role = "controller" ∨ role = "api"

theorem owned (h0 : Unused sid (r.state 0)) : ∀ m, m ≤ r.length → Owned sid (r.state m) :=
  r.invariant (fun pid h => absurd h (h0.unowned pid)) fun _ _ _ h ho => owned_step ho h

/-- A process that lives through the call is visited with a receipt. -/
theorem complete_of_live (h0 : Unused sid (r.state 0))
    (hs : ∀ id i, i ≤ r.length → Serial id (r.state i)) (hroles : Roles r) {a : FileVerboseState}
    {ps : List FileVerboseProcess} (h : StatusCall r i j a ps) (hj : j ≤ r.length)
    (hc : Published sid id (r.state i) c)
    (hl : ∀ m, i ≤ m → m ≤ j → (r.state m).os.live id = true) :
    ∃ p ∈ ps, Witness r i j p id ∧ c.revision ≤ p.revision := by
  obtain ⟨t, g, todo, result, hit, htg, -, -, hglob, hscan, rfl⟩ := h.call
  have hgj : g ≤ j := hscan.le
  -- the receipt is there at every moment of the call, newer perhaps
  have kept (m : Nat) (him : i ≤ m) (hmj : m ≤ j) :
      ∃ d, Published sid id (r.state m) d ∧ c.revision ≤ d.revision := by
    rcases published_mono h0.fresh (hs id) him (hmj.trans hj) hc with h | ⟨hd, -⟩
    · exact h
    · exact absurd (hd.symm.trans (hl m him hmj)) Bool.false_ne_true
  have hlisted : id.pid ∈ todo := by
    obtain ⟨d, ⟨role, x, hd⟩, -⟩ := kept g (hit.trans htg) hgj
    rw [hglob, hd]
    exact nofun
  obtain ⟨m, k, hgm, hmk, hkj, hp⟩ := hscan.visits hlisted
  have him : i ≤ m := (hit.trans htg).trans hgm
  obtain ⟨d, ⟨role, x, hd⟩, hcd⟩ := kept m him (hmk.trans hkj)
  have hlive := hl k (him.trans hmk) hkj
  have hrole := hroles m id role d x ((hmk.trans hkj).trans hj) hd
  have hmem := hp ⟨role, id.pid, d.enabled, d.revision, x⟩ (by
    rw [hd, readState, processObservation_observation, if_pos ⟨hlive, hrole⟩])
  exact ⟨_, (List.mergeSort_perm ..).mem_iff.mpr hmem, ⟨rfl, m, k, him, hmk, hkj, hd, hlive⟩, hcd⟩

/-- **A status call reports the target and the processes of this start as they were during the
call**, whatever these go on doing. -/
theorem status_faithful (r : Run (Step sid)) (h0 : Unused sid (r.state 0))
    (hs : ∀ id i, i ≤ r.length → Serial id (r.state i)) (hroles : Roles r) : Faithful r where
  target i j a ps h hj := by
    obtain ⟨t, g, todo, result, hit, htg, hread, -, -, hscan, -⟩ := h.call
    have htj : t ≤ j := htg.trans hscan.le
    obtain ⟨b, hb⟩ := Run.inv h0.init (htj.trans hj)
    exact ⟨t, hit, htj, hb.reads.unique hread ▸ hb.reads⟩
  reported i j a ps p h hj hp := by
    obtain ⟨t, g, todo, result, hit, htg, -, -, -, hscan, rfl⟩ := h.call
    obtain ⟨id, hid, m, k, hgm, hmk, hkj, hc, hl⟩ :=
      hscan.sound (owned h0) hj ((List.mergeSort_perm ..).mem_iff.mp hp)
    exact ⟨id, hid, m, k, (hit.trans htg).trans hgm, hmk, hkj, hc, hl⟩
  past i j a ps p b h hj hp hb := by
    obtain ⟨t, g, todo, result, hit, htg, -, -, -, hscan, rfl⟩ := h.call
    obtain ⟨id, hw⟩ := hscan.sound (owned h0) hj ((List.mergeSort_perm ..).mem_iff.mp hp)
    obtain ⟨m, -, hmj, hc⟩ := hw.published
    obtain ⟨k, hk, hread⟩ := (history h0.fresh m (hmj.trans hj)).published id _ hc
    exact ⟨⟨k, hk.trans hmj, hread⟩, (later_of_le h0.init (hk.trans hmj) hj hread hb).revision_le⟩
  complete i j a ps id c h hj hc hl := complete_of_live h0 hs hroles h hj hc hl
  ordered i j a ps h hj := by
    obtain ⟨t, g, todo, result, hit, htg, -, hnodup, -, hscan, rfl⟩ := h.call
    have hle : (result.mergeSort fun a b => a.pid ≤ b.pid).Pairwise
        fun a b => decide (a.pid ≤ b.pid) = true :=
      List.pairwise_mergeSort (fun a b c => by simpa using Nat.le_trans)
        (fun a b => by simpa using Nat.le_total _ _) result
    have hne : ((result.mergeSort fun a b => a.pid ≤ b.pid).map (·.pid)).Nodup :=
      ((List.mergeSort_perm ..).map _).nodup_iff.mpr ((hscan.pids (owned h0) hj).nodup hnodup)
    rw [List.Nodup, List.pairwise_map] at hne
    exact (hle.and hne).imp fun h => lt_of_le_of_ne (of_decide_eq_true h.1) h.2
  mono i j i' j' p p' id hji hj' hw hw' := by
    obtain ⟨m, -, hmj, hc⟩ := hw.published
    obtain ⟨m', him', hmj', hc'⟩ := hw'.published
    have hmm' : m ≤ m' := (hmj.trans hji).trans him'
    rcases published_mono h0.fresh (hs id) hmm' (hmj'.trans hj') hc with ⟨d, hd, hcd⟩ | ⟨-, -, hno⟩
    · obtain rfl := hd.unique hc'
      exact hcd
    · exact absurd hc' (hno _)

end Runs

/-! ## A call after the first receipt -/

/-- The receipts of the run: the ones of its first process, after the construction and the
refresh. -/
theorem overtaken_observations {i : Nat} (hi : i ≤ 15) :
    (overtaken.state i).observations = (fun _ => .absent) ∨
      ∃ a x, (overtaken.state i).observations = Function.update (fun _ => .absent) 1
        (.object (observationRecord ⟨1, 0⟩ "service" "api" a x)) := by
  have hi : i < 16 := Nat.lt_succ_of_le hi
  interval_cases i
  iterate 5 exact .inl rfl
  iterate 10 exact .inr ⟨⟨false, 0⟩, 0, rfl⟩
  refine .inr ⟨⟨true, 1⟩, 1, ?_⟩
  exact Function.update_idem ..

theorem overtaken_roles : Roles overtaken := by
  intro i id role c x hi h
  rcases overtaken_observations hi with ho | ⟨a, y, ho⟩
  · rw [ho] at h
    cases h
  · rw [ho] at h
    by_cases hid : id.pid = 1
    · rw [hid, Function.update_self] at h
      have h' := Stored.object.inj h
      simp only [observationRecord, processIdentity, List.cons_append, List.nil_append,
        List.cons.injEq, Prod.mk.injEq, Value.str.injEq, true_and] at h'
      exact .inr h'.2.2.1.symm
    · rw [Function.update_of_ne hid] at h
      cases h

theorem overtaken_call : StatusCall overtaken 15 15 ⟨true, 1⟩ [⟨"api", 1, true, 1, 1⟩] where
  call := by
    have hreport : processObservation (overtaken.state 15).os "service"
        (readState ((overtaken.state 15).observations 1)) = some ⟨"api", 1, true, 1, 1⟩ := by
      show processObservation _ _ (observationRecord ⟨1, 0⟩ "service" "api" ⟨true, 1⟩ 1) = _
      rw [processObservation_observation, if_pos ⟨rfl, .inr rfl⟩]
    refine ⟨15, 15, [1], _, le_rfl, le_rfl, readTarget_targetRecord .., List.nodup_singleton 1,
      fun pid => ?_, .cons le_rfl le_rfl (.nil le_rfl), by simp [hreport]⟩
    by_cases hpid : pid = 1
    · subst hpid
      exact ⟨fun _ h => Stored.noConfusion h, fun _ => List.mem_singleton_self 1⟩
    · refine ⟨fun h => absurd (List.mem_singleton.mp h) hpid, fun h => absurd ?_ h⟩
      rcases overtaken_observations (le_refl 15) with ho | ⟨a, x, ho⟩
      · rw [ho]
      · rw [ho, Function.update_of_ne hpid]

theorem status_faithful_overtaken :
    ∃ id, Witness overtaken 15 15 ⟨"api", 1, true, 1, 1⟩ id := by
  have h0 : Unused "service" (overtaken.state 0) :=
    ⟨⟨⟨⟨false, 0⟩, rfl⟩, rfl, fun _ => rfl, fun _ => rfl⟩, fun _ ⟨_, hv, _⟩ => by cases hv⟩
  have ho (id : Identity) : ∀ i t, i < overtaken.length → overtaken.label i = .refresh t →
      t.process = id → t = ⟨⟨1, 0⟩, 0⟩ := by
    intro i t hi hl _
    have hi : i < 15 := hi
    interval_cases i <;> first | exact (Label.refresh.inj hl).symm | exact Label.noConfusion hl
  exact (status_faithful overtaken h0 (fun id => serial_of_owner h0.init (ho id))
    overtaken_roles).reported 15 15 _ _ _ overtaken_call le_rfl (List.mem_singleton_self _)

end LclFastapi.Verbose
