import LclFastapi.Lib.Dict
import LclFastapi.Lib.Dotted
import Mathlib.Data.List.Basic

/-!
# Log routing (`background/logging.py`, `background/config.py`, `verbose/sink.py`)

The log files of the API process are separated by role in two halves: `background_log_config`
qualifies the source filter of every sink by the role the sink belongs to, and `WorkerLogFilter`
qualifies the source of every record by the role that produces it.

* `worker_registry` admits identifiers only; `str.isidentifier` is a parameter, of which the proofs
  use that an identifier has no dot.
* A native sink compares its threshold, then its `logger_names` (`FileSink.accepts`), which it
  inherits from the `default` template (`effectiveNames`).
* `DiagnosticFileSink` hands the native sink the routing name of a record.

**`log_isolated`**: a sink accepts what its own role produces and its declared filter accepts, and
nothing else; a disabled worker has no sink, every enabled one has.
-/

namespace LclFastapi.Background

open Lib (Dict Under)

/-! ## Registration -/

/-- The errors of `worker_registry`. -/
inductive RegistryError where
  | invalid (name : String)
  | notCallable (name : String)

/-- The text of an error; `repr` is Python's. -/
def RegistryError.message (repr : String → String) : RegistryError → String
  | .invalid name => "background worker name is invalid or reserved: " ++ repr name
  | .notCallable name => "background worker " ++ name ++ ": expected a Python callable"

section Registry

variable {E : Type*} (isidentifier : String → Bool) (callable : E → Bool)

/-- The loop of `worker_registry` over its copy. -/
def checkWorkers : List (String × E) → Except RegistryError Unit
  | [] => .ok ()
  | (name, executable) :: rest =>
    if !isidentifier name || name ∈ ["default", "controller", "service"] then
      .error (.invalid name)
    else if !callable executable then .error (.notCallable name)
    else checkWorkers rest

/-- `worker_registry(workers)`. -/
def worker_registry (workers : Option (Dict String E)) : Except RegistryError (Dict String E) :=
  let result := workers.getD Dict.empty
  match checkWorkers isidentifier callable result.entries with
  | .ok () => .ok result
  | .error e => .error e

theorem checkWorkers_ok {l : List (String × E)} (h : checkWorkers isidentifier callable l = .ok ())
    {name : String} (hn : name ∈ l.map Prod.fst) :
    isidentifier name = true ∧ name ∉ ["default", "controller", "service"] := by
  induction l with
  | nil => cases hn
  | cons e l ih =>
    obtain ⟨first, executable⟩ := e
    unfold checkWorkers at h
    split at h
    · cases h
    · rename_i hname
      split at h
      · cases h
      · rcases List.mem_cons.mp hn with rfl | hn
        · simpa using hname
        · exact ih h hn

theorem worker_registry_ok {workers : Option (Dict String E)} {result : Dict String E}
    (h : worker_registry isidentifier callable workers = .ok result) {name : String}
    (hn : name ∈ result.keys) :
    isidentifier name = true ∧ name ∉ ["default", "controller", "service"] := by
  unfold worker_registry at h
  simp only at h
  split at h
  · rename_i hc
    cases h
    exact checkWorkers_ok isidentifier callable hc hn
  · cases h

end Registry

/-- `WorkerPolicy`. -/
structure WorkerPolicy where
  enabled : Bool
  auto_restart : Bool

/-! ## Sinks -/

/-- One entry of `config.file`; what routing does not read is left out. -/
structure Declaration where
  filename : Option String
  logger_names : Option (List String)

/-- `logger_names` of a sink, by its declaration or its template. -/
def effectiveNames (files : Dict String Declaration) (f : String) : List String :=
  ((files.get? f).bind Declaration.logger_names).getD
    (((files.get? "default").bind Declaration.logger_names).getD [])

/-- The native source filter. -/
def sourceFilter (logger_names : List String) (name : String) : Bool :=
  logger_names.isEmpty || logger_names.any fun n =>
    name == n || (n ++ ".").toList.isPrefixOf name.toList

/-- What the filters and the sinks read of a record. -/
structure LogRecord where
  name : String
  levelno : Int
  lcl_source_name : Option String
  request_id : Option String
  lcl_file_verbose : Option Bool

/-- `getattr(record, "lcl_source_name", record.name)`. -/
def LogRecord.source (r : LogRecord) : String := r.lcl_source_name.getD r.name

/-- A native sink. -/
structure FileSink where
  level : Int
  logger_names : List String

/-- The native sink accepts the record. -/
def FileSink.accepts (sink : FileSink) (r : LogRecord) : Bool :=
  decide (sink.level ≤ r.levelno) && sourceFilter sink.logger_names r.name

/-- `DiagnosticFileSink.accepts`. -/
def diagnosticAccepts (original : FileSink) (r : LogRecord) : Bool :=
  let probe := { r with name := r.source }
  match r.lcl_file_verbose with
  | none => original.accepts probe
  | some false => false
  | some true => original.accepts { probe with levelno := max r.levelno original.level }

/-- The threshold and the file policy admit the record. -/
def Admitted (level : Int) (r : LogRecord) : Prop :=
  match r.lcl_file_verbose with
  | none => level ≤ r.levelno
  | some verbose => verbose = true

theorem admitted_untagged {level : Int} {r : LogRecord} (h : r.lcl_file_verbose = none) :
    Admitted level r ↔ level ≤ r.levelno := by
  simp only [Admitted, h]

theorem admitted_tagged {level : Int} {r : LogRecord} {policy : Bool}
    (h : r.lcl_file_verbose = some policy) : Admitted level r ↔ policy = true := by
  simp only [Admitted, h]

/-! ## The two halves -/

/-- `WorkerLogFilter.filter`, for the value of `BACKGROUND_NAME`. -/
def workerLogFilter (worker : Option String) (r : LogRecord) : LogRecord :=
  let role := match worker with
    | none => "api"
    | some name => "background." ++ name
  let source := "lcl_fastapi." ++ role ++ "." ++ r.source
  { r with
    lcl_source_name := some source
    name := if r.request_id.isSome then r.name else source }

/-- The file of an enabled worker: its declaration, with a default file name. -/
def workerFile (app_name : String) (pid : Nat) (name : String) (declared : Option Declaration) :
    Declaration :=
  let explicit := declared.getD ⟨none, none⟩
  { explicit with filename := some (explicit.filename.getD s!"{app_name}.{name}.{pid}.log") }

/-- The first loop of `background_log_config`. -/
def addFile (app_name : String) (pid : Nat) (files : Dict String Declaration)
    (e : String × WorkerPolicy) : Dict String Declaration :=
  if e.2.enabled then files.set e.1 (workerFile app_name pid e.1 (files.get? e.1))
  else files.erase e.1

/-- The second loop, for one declaration. -/
def qualify (policies : Dict String WorkerPolicy) (template : Declaration) (name : String)
    (values : Declaration) : Declaration :=
  if name = "default" then values
  else
    let role := if name ∈ policies.keys then "background." ++ name else "api"
    let lead := "lcl_fastapi." ++ role
    let sources := values.logger_names.getD (template.logger_names.getD [])
    let names := sources.map fun source => lead ++ "." ++ source
    { values with logger_names := some (if names = [] then [lead] else names) }

/-- `background_log_config(config, policies, app_name, pid)`. -/
def background_log_config (files : Dict String Declaration) (policies : Dict String WorkerPolicy)
    (app_name : String) (pid : Nat) : Dict String Declaration :=
  if policies.entries = [] then files
  else
    let files := policies.entries.foldl (addFile app_name pid) files
    files.mapWithKey (qualify policies ((files.get? "default").getD ⟨none, none⟩))

/-- A record as it reaches the sinks: `background_log_routing` is enabled by `bool(policies)`. -/
def routed (policies : Dict String WorkerPolicy) (worker : Option String) (r : LogRecord) :
    LogRecord :=
  if policies.entries = [] then r else workerLogFilter worker r

/-! ## Isolation -/

/-- The role a sink belongs to: the worker of that name, or the API. -/
def sinkRole (policies : Dict String WorkerPolicy) (f : String) : Option String :=
  if f ∈ policies.keys then some f else none

/-- A role that produces records: the API, or an enabled worker. -/
def Produces (policies : Dict String WorkerPolicy) : Option String → Prop
  | none => True
  | some name => ∃ policy, policies.get? name = some policy ∧ policy.enabled = true

/-- The sinks `files'` that routing makes of the declared `files`. -/
structure Isolated (policies : Dict String WorkerPolicy) (files files' : Dict String Declaration) :
    Prop where
  /-- A disabled worker has no sink, every enabled worker has one, and the others stay. -/
  sinks : ∀ f, f ≠ "default" → (files'.get? f ≠ none ↔ match policies.get? f with
    | some policy => policy.enabled = true
    | none => files.get? f ≠ none)
  /-- A sink accepts what its role produces and its declared filter accepts. -/
  accepts : ∀ f, f ≠ "default" → files'.get? f ≠ none → ∀ level worker r, Produces policies worker →
    (diagnosticAccepts ⟨level, effectiveNames files' f⟩ (routed policies worker r) = true ↔
      Admitted level r ∧ worker = sinkRole policies f ∧
        sourceFilter (effectiveNames files f) r.source = true)

section Files

variable {app_name : String} {pid : Nat} {files : Dict String Declaration}
  {policies : Dict String WorkerPolicy} {f : String}

theorem addFile_ne {e : String × WorkerPolicy} (h : f ≠ e.1) :
    (addFile app_name pid files e).get? f = files.get? f := by
  unfold addFile
  split
  · rw [Dict.get?_set, if_neg h]
  · rw [Dict.get?_erase, if_neg h]

theorem addFile_self {policy : WorkerPolicy} :
    (addFile app_name pid files (f, policy)).get? f =
      if policy.enabled then some (workerFile app_name pid f (files.get? f)) else none := by
  unfold addFile
  split
  · rw [Dict.get?_set, if_pos rfl]
  · rw [Dict.get?_erase, if_pos rfl]

theorem addFiles_ne {l : List (String × WorkerPolicy)} (h : f ∉ l.map Prod.fst) :
    (l.foldl (addFile app_name pid) files).get? f = files.get? f := by
  induction l generalizing files with
  | nil => rfl
  | cons e l ih =>
    rw [List.map_cons, List.mem_cons, not_or] at h
    rw [List.foldl_cons, ih h.2, addFile_ne h.1]

/-- Each worker's file depends on its own declaration only. -/
theorem addFiles_mem {l : List (String × WorkerPolicy)} {policy : WorkerPolicy}
    (hnodup : (l.map Prod.fst).Nodup) (hmem : (f, policy) ∈ l) :
    (l.foldl (addFile app_name pid) files).get? f =
      if policy.enabled then some (workerFile app_name pid f (files.get? f)) else none := by
  induction l generalizing files with
  | nil => cases hmem
  | cons e l ih =>
    obtain ⟨hnew, hnodup⟩ := List.nodup_cons.mp hnodup
    rw [List.foldl_cons]
    rcases List.mem_cons.mp hmem with rfl | hmem
    · rw [addFiles_ne hnew, addFile_self]
    · have hne : f ≠ e.1 := by
        rintro rfl
        exact hnew (List.mem_map.mpr ⟨_, hmem, rfl⟩)
      rw [ih hnodup hmem, addFile_ne hne]

theorem addFiles_get? :
    (policies.entries.foldl (addFile app_name pid) files).get? f = match policies.get? f with
      | some policy =>
        if policy.enabled then some (workerFile app_name pid f (files.get? f)) else none
      | none => files.get? f := by
  split
  · rename_i policy hp
    exact addFiles_mem policies.nodup (Dict.mem_entries.mpr hp)
  · rename_i hp
    exact addFiles_ne (Dict.get?_eq_none.mp hp)

end Files

/-! ## Routing names -/

section Names

/-- The part of a routing name that stands for the role. -/
def roleText : Option String → String
  | none => "api"
  | some name => "background." ++ name

theorem workerLogFilter_source (worker : Option String) (r : LogRecord) :
    (workerLogFilter worker r).source = "lcl_fastapi." ++ roleText worker ++ "." ++ r.source := by
  cases worker <;> rfl

theorem sourceFilter_iff {names : List String} {name : String} :
    sourceFilter names name = true ↔
      names = [] ∨ ∃ n, n ∈ names ∧ Under '.' n.toList name.toList := by
  unfold sourceFilter Under
  simp only [Bool.or_eq_true, List.isEmpty_iff, List.any_eq_true, beq_iff_eq,
    List.isPrefixOf_iff_prefix, String.toList_append, ← String.toList_inj]
  rfl

/-- A worker's name is one label of a dotted name. -/
def OneLabel (role : Option String) : Prop := ∀ name, role = some name → '.' ∉ name.toList

variable {a b : Option String} {n s : String}

theorem toList_background (name : String) :
    (roleText (some name)).toList = "background".toList ++ '.' :: name.toList := by
  show ("background." ++ name).toList = _
  rw [String.toList_append]
  rfl

/-- Roles have routing names of their own, also where one worker's name starts another's. -/
theorem role_separated (ha : OneLabel a) (hb : OneLabel b) :
    Lib.Separated '.' (roleText a).toList (roleText b).toList := by
  have hapi : '.' ∉ "api".toList := by decide
  have hbackground : '.' ∉ "background".toList := by decide
  have hunder : ∀ w, Under '.' "background".toList (roleText (some w)).toList := by
    intro w
    rw [toList_background]
    exact .inr ⟨w.toList, by rw [List.append_assoc]; rfl⟩
  cases a with
  | none =>
    cases b with
    | none => exact Lib.separated_labels hapi hapi
    | some w => exact Lib.separated_of_ne hapi hbackground (by decide) (.inl rfl) (hunder w)
  | some v =>
    cases b with
    | none => exact Lib.separated_of_ne hbackground hapi (by decide) (hunder v) (.inl rfl)
    | some w =>
      rw [toList_background, toList_background, List.append_cons, List.append_cons _ _ w.toList]
      exact (Lib.separated_labels (ha v rfl) (hb w rfl)).append_left

theorem roleText_inj (h : (roleText a).toList = (roleText b).toList) : a = b := by
  have hapi : ∀ w, "api".toList ≠ (roleText (some w)).toList := by
    intro w he
    rw [toList_background] at he
    exact absurd (he ▸ List.mem_append_right _ (.head _)) (by decide : '.' ∉ "api".toList)
  cases a with
  | none =>
    cases b with
    | none => rfl
    | some w => exact absurd h (hapi w)
  | some v =>
    cases b with
    | none => exact absurd h.symm (hapi v)
    | some w =>
      rw [toList_background, toList_background, List.append_cancel_left_eq] at h
      rw [String.toList_inj.mp (List.cons.inj h).2]

/-- The qualified filter of a sink, on a routing name. -/
theorem sourceFilter_routed {sources : List String} (ha : OneLabel a) (hb : OneLabel b) :
    sourceFilter
        (let names := sources.map fun source => "lcl_fastapi." ++ roleText a ++ "." ++ source
         if names = [] then ["lcl_fastapi." ++ roleText a] else names)
        ("lcl_fastapi." ++ roleText b ++ "." ++ s) = true ↔
      a = b ∧ sourceFilter sources s = true := by
  have hsep := role_separated ha hb
  have hrole : (roleText a).toList = (roleText b).toList ↔ a = b :=
    ⟨roleText_inj, fun h => by rw [h]⟩
  have hlist : ∀ role n : String, ("lcl_fastapi." ++ role ++ "." ++ n).toList =
      "lcl_fastapi.".toList ++ (role.toList ++ '.' :: n.toList) := by
    intro role n
    rw [String.toList_append, String.toList_append, String.toList_append, List.append_assoc,
      List.append_assoc]
    rfl
  rw [sourceFilter_iff, sourceFilter_iff, hlist]
  by_cases hs : sources = []
  · subst hs
    simp only [List.map_nil, if_true, List.mem_singleton, exists_eq_left, String.toList_append,
      List.cons_ne_nil, false_or, true_or, and_true, Lib.under_append_left, hsep.under_self_iff,
      hrole]
  · simp only [List.map_eq_nil_iff, hs, if_false, false_or, List.mem_map,
      exists_exists_and_eq_and, hlist, Lib.under_append_left, hsep.under_iff, hrole, and_left_comm,
      exists_and_left]

end Names

section Isolation

variable {E : Type*} {files : Dict String Declaration} {policies : Dict String WorkerPolicy}
  {app_name : String} {pid : Nat} {f : String}

/-- What routing makes of the declaration of one sink; the template is as declared. -/
theorem config_get? (hne : policies.entries ≠ []) (hd : "default" ∉ policies.keys) :
    (background_log_config files policies app_name pid).get? f =
      ((policies.entries.foldl (addFile app_name pid) files).get? f).map
        (qualify policies ((files.get? "default").getD ⟨none, none⟩) f) := by
  have htemplate : (policies.entries.foldl (addFile app_name pid) files).get? "default" =
      files.get? "default" := addFiles_ne hd
  unfold background_log_config
  rw [if_neg hne, Dict.get?_mapWithKey, htemplate]

/-- A worker's file keeps the declared `logger_names`. -/
theorem addFiles_names {d : Declaration}
    (h : (policies.entries.foldl (addFile app_name pid) files).get? f = some d) :
    d.logger_names = (files.get? f).bind Declaration.logger_names := by
  rw [addFiles_get?] at h
  split at h
  · split at h
    · cases h
      cases files.get? f <;> rfl
    · cases h
  · rw [h]
    rfl

theorem qualify_names {template d : Declaration} (hf : f ≠ "default") :
    (qualify policies template f d).logger_names =
      some (let names := (d.logger_names.getD (template.logger_names.getD [])).map fun source =>
              "lcl_fastapi." ++ roleText (sinkRole policies f) ++ "." ++ source
            if names = [] then ["lcl_fastapi." ++ roleText (sinkRole policies f)] else names) := by
  have hrole : (if f ∈ policies.keys then "background." ++ f else "api") =
      roleText (sinkRole policies f) := by
    unfold sinkRole
    split <;> rfl
  unfold qualify
  rw [if_neg hf, hrole]

theorem effectiveNames_config (hne : policies.entries ≠ []) (hd : "default" ∉ policies.keys)
    (hf : f ≠ "default")
    (hmem : (background_log_config files policies app_name pid).get? f ≠ none) :
    effectiveNames (background_log_config files policies app_name pid) f =
      (let names := (effectiveNames files f).map fun source =>
          "lcl_fastapi." ++ roleText (sinkRole policies f) ++ "." ++ source
        if names = [] then ["lcl_fastapi." ++ roleText (sinkRole policies f)] else names) := by
  rw [config_get? hne hd, ne_eq, Option.map_eq_none_iff] at hmem
  obtain ⟨d, hget⟩ := Option.ne_none_iff_exists'.mp hmem
  have hsources : d.logger_names.getD
      (((files.get? "default").getD ⟨none, none⟩).logger_names.getD []) =
      effectiveNames files f := by
    unfold effectiveNames
    rw [addFiles_names hget]
    cases files.get? "default" <;> rfl
  unfold effectiveNames
  rw [config_get? hne hd, hget, Option.map_some, Option.bind_some, qualify_names hf, hsources]
  rfl

/-- What the sink hands on to the native one. -/
theorem diagnosticAccepts_iff {sink : FileSink} {r : LogRecord} :
    diagnosticAccepts sink r = true ↔
      Admitted sink.level r ∧ sourceFilter sink.logger_names r.source = true := by
  unfold diagnosticAccepts Admitted
  cases r.lcl_file_verbose with
  | none => simp [FileSink.accepts]
  | some verbose =>
    cases verbose with
    | false => simp
    | true => simp only [FileSink.accepts, Int.le_max_right, decide_true, Bool.true_and, true_and]

theorem Produces.oneLabel {worker : Option String}
    (hdot : ∀ name ∈ policies.keys, '.' ∉ name.toList)
    (h : Produces policies worker) : OneLabel worker := by
  rintro name rfl
  obtain ⟨policy, hp, -⟩ := h
  exact hdot name (by_contra fun hnot => by rw [Dict.get?_eq_none.mpr hnot] at hp; cases hp)

theorem sinkRole_oneLabel (hdot : ∀ name ∈ policies.keys, '.' ∉ name.toList) :
    OneLabel (sinkRole policies f) := by
  intro name hname
  unfold sinkRole at hname
  split at hname
  · rename_i hf
    cases hname
    exact hdot f hf
  · cases hname

/-- **Log files are isolated by role.** -/
theorem log_isolated (isidentifier : String → Bool) (callable : E → Bool)
    (hid : ∀ name, isidentifier name = true → '.' ∉ name.toList)
    {workers : Option (Dict String E)} {registry : Dict String E}
    (hreg : worker_registry isidentifier callable workers = .ok registry)
    (hkeys : policies.keys = registry.keys) :
    Isolated policies files (background_log_config files policies app_name pid) := by
  have hnames : ∀ name ∈ policies.keys, '.' ∉ name.toList := fun name hn =>
    hid name (worker_registry_ok _ _ hreg (hkeys ▸ hn)).1
  have hd : "default" ∉ policies.keys := fun hn =>
    (worker_registry_ok _ _ hreg (hkeys ▸ hn)).2 (.head _)
  by_cases hne : policies.entries = []
  · -- No worker is registered: the configuration and the records are untouched.
    have hget : ∀ f, policies.get? f = none := fun f => by
      rw [Dict.get?_eq_none]
      unfold Dict.keys
      rw [hne]
      nofun
    have hconfig : background_log_config files policies app_name pid = files := if_pos hne
    rw [hconfig]
    refine ⟨fun f _ => by rw [hget f], fun f _ _ level worker r hw => ?_⟩
    have hworker : worker = sinkRole policies f := by
      unfold sinkRole
      rw [if_neg (Dict.get?_eq_none.mp (hget f))]
      cases worker with
      | none => rfl
      | some name =>
        obtain ⟨policy, hp, -⟩ := hw
        rw [hget name] at hp
        cases hp
    unfold routed
    rw [if_pos hne, diagnosticAccepts_iff, and_iff_right hworker]
  · refine ⟨fun f hf => ?_, fun f hf hmem level worker r hw => ?_⟩
    · rw [config_get? hne hd, ne_eq, Option.map_eq_none_iff, addFiles_get?]
      cases policies.get? f with
      | none => rfl
      | some policy => cases policy.enabled <;> simp
    · rw [diagnosticAccepts_iff, effectiveNames_config hne hd hf hmem]
      unfold routed
      rw [if_neg hne, workerLogFilter_source,
        sourceFilter_routed (sinkRole_oneLabel hnames) (hw.oneLabel hnames), eq_comm (a := worker)]
      rfl

end Isolation

/-! ## A registration -/

/-- `str.isidentifier` on ASCII names. -/
def asciiIdentifier (name : String) : Bool :=
  match name.toList with
  | [] => false
  | c :: cs => (c.isAlpha || c == '_') && cs.all fun c => c.isAlphanum || c == '_'

theorem asciiIdentifier_no_dot (name : String) (h : asciiIdentifier name = true) :
    '.' ∉ name.toList := by
  unfold asciiIdentifier at h
  cases hl : name.toList with
  | nil => nofun
  | cons c cs =>
    rw [hl, Bool.and_eq_true, List.all_eq_true] at h
    intro hmem
    rcases List.mem_cons.mp hmem with rfl | hmem
    · exact absurd h.1 (by decide)
    · exact absurd (h.2 '.' hmem) (by decide)

/-- The sink of `job` does not get the records of `job2`. -/
theorem log_isolated_job :
    let files : Dict String Declaration := ⟨[("default", ⟨none, some ["inherited"]⟩),
      ("job", ⟨none, some ["nested"]⟩), ("off", ⟨none, none⟩)], by decide⟩
    let policies : Dict String WorkerPolicy :=
      ⟨[("job", ⟨true, true⟩), ("job2", ⟨true, true⟩), ("off", ⟨false, true⟩)], by decide⟩
    let registry : Dict String Unit := ⟨[("job", ()), ("job2", ()), ("off", ())], by decide⟩
    worker_registry asciiIdentifier (fun _ => true) (some registry) = .ok registry ∧
      Isolated policies files (background_log_config files policies "app" 1) := by
  intro files policies registry
  have hreg : worker_registry asciiIdentifier (fun _ => true) (some registry) = .ok registry := by
    rfl
  exact ⟨hreg, log_isolated asciiIdentifier (fun _ => true) asciiIdentifier_no_dot hreg rfl⟩

end LclFastapi.Background
