import LclFastapi.Lib.Dict
import LclFastapi.Lib.Proc
import LclFastapi.Verbose.Policy
import Mathlib.Data.Finset.Basic

/-!
# Business events (`log_events.py`, `RequestLogger` of `logging.py`)

`log_event` selects fields of a record and additional values, masks some of them, and logs one
message.

* Everything that may be code of the application is a program with the state of the application
  and its exceptions: iterating over `fields` and `masked_fields`, reading an attribute, and what
  the native library does with a value that it represents.
* `Native.redacts` is the contract of `make_repr_lines`: what is under a masked key is not used.
* A record that is given is `Obj`; `None` is `none`. An event that is no text is `none`.

**`events_masked`**: what a masked name stands for has no effect at all, an invalid selection reads
nothing, and a message shows the selected fields and then the values, in their orders.
-/

namespace LclFastapi.LogEvents

open Lib (Dict)
open Lib.Proc (Returns bind_apply_congr bind_eq_ok bind_ok_apply)
open Verbose (LogMetadata Producer log_metadata)

variable {ε σ V : Type}

/-! ## Programs -/

/-- What is raised. -/
inductive Failure (ε : Type) where
  | TypeError (text : String)
  | ValueError (text : String)
  | AttributeError (name : String)
  /-- An exception of the application or of the native library. -/
  | raised (e : ε)

/-- Programs that log. -/
abbrev M (ε σ : Type) := EStateM (Failure ε) σ

/-- An object, as `event_message` looks at it. -/
structure Obj (ε σ V : Type) where
  is_dataclass : Bool
  /-- `isinstance(record, type)`. -/
  is_type : Bool
  /-- The names of `dataclasses.fields`. -/
  dataclass_fields : List String
  getattr : String → M ε σ V

/-- A call of the native `Logger.log`. -/
structure Call (V : Type) where
  level : Int
  msg : String
  args : List String
  compact : V
  stacklevel : Nat
  metadata : LogMetadata
  lcl_source_name : String
  lcl_business_record : Bool

/-- The native library and the logger's backend. -/
structure Native (ε σ V : Type) where
  None : V
  /-- The context variables of the producing execution. -/
  context : σ → Producer
  backend_name : String
  boolean : V → String → M ε σ Unit
  isEnabledFor : Int → M ε σ Bool
  /-- `safe_repr(event, renderer=str)`. -/
  safe_repr : String → M ε σ String
  make_repr_lines : Dict String V → Finset String → M ε σ (List String)
  make_multi_log_lines : String → List String → String
  log : Call V → M ε σ Unit
  /-- Masked values are not used, where every masked key is there. -/
  redacts : ∀ (p p' : Dict String V) (masked : Finset String), p.keys = p'.keys →
    (∀ name ∈ masked, name ∈ p.keys) → (∀ name ∉ masked, p.get? name = p'.get? name) →
    make_repr_lines p masked = make_repr_lines p' masked

/-! ## `event_message` -/

/-- `getattr(record, name)`. -/
def getattr (record : Option (Obj ε σ V)) (name : String) : M ε σ V :=
  match record with
  | some record => record.getattr name
  | none => throw (.AttributeError name)

/-- The fields of the record, if there is one. -/
def declared (record : Option (Obj ε σ V)) : List String :=
  match record with
  | some record => record.dataclass_fields
  | none => []

/-- The comprehension over `selected`. -/
def project (read : String → M ε σ V) : List String → Dict String V → M ε σ (Dict String V)
  | [], projected => pure projected
  | name :: selected, projected => do
    let value ← read name
    project read selected (projected.set name value)

/-- The condition of the `ValueError`. -/
def conflicting (declared selected masks keys : List String) : Bool :=
  selected.any (fun name => name ∉ declared) || selected.dedup.length != selected.length ||
    selected.any (fun name => name ∈ keys) || masks.dedup.length != masks.length ||
    masks.any fun name => name ∉ selected && name ∉ keys

section Events

variable (x : Native ε σ V)

/-- What the comprehension does with one name. -/
def read (record : Option (Obj ε σ V)) (masked : Finset String) (name : String) : M ε σ V :=
  if name ∈ masked then pure x.None else getattr record name

/-- `event_message`, from the accepted selection on. -/
def render (event : String) (record : Option (Obj ε σ V)) (selected : List String)
    (masked : Finset String) (values : Dict String V) : M ε σ String := do
  let projected ← project (read x record masked) selected Dict.empty
  let title ← x.safe_repr event
  let lines ← x.make_repr_lines (projected.update values) masked
  return x.make_multi_log_lines title lines

/-- `event_message(event, record, ...)`. -/
def event_message (event : Option String) (record : Option (Obj ε σ V))
    (fields masked_fields : M ε σ (List String)) (values : Dict String V) : M ε σ String :=
  match event with
  | none => throw (.TypeError "event must be text")
  | some event =>
    if record.any fun record => !record.is_dataclass || record.is_type then
      throw (.TypeError "event record must be a dataclass instance")
    else do
      let selected ← fields
      let masks ← masked_fields
      if conflicting (declared record) selected masks values.keys then
        throw (.ValueError "event fields and masks must be known, unique and without conflicts")
      else render x event record selected masks.toFinset values

/-! ## `RequestLogger` -/

/-- `RequestLogger.log`. -/
def log (level : Int) (msg : String) (args : List String) (compact : V) (stacklevel : Nat) :
    M ε σ Unit := do
  let state ← get
  x.log ⟨level, msg, args, compact, stacklevel + 1, log_metadata (x.context state), x.backend_name,
    true⟩

/-- `RequestLogger.log_event`. -/
def log_event (event : Option String) (level : Int) (record : Option (Obj ε σ V))
    (fields masked_fields : M ε σ (List String)) (compact : V) (values : Dict String V) :
    M ε σ Unit := do
  x.boolean compact "compact"
  let enabled ← x.isEnabledFor level
  if !enabled then pure ()
  else do
    let message ← event_message x event record fields masked_fields values
    log x level "%s" [message] compact 2

end Events

/-! ## Projections -/

section Project

variable {read : String → M ε σ V} {selected : List String} {projected : Dict String V}

theorem project_keys : Returns (fun p => (∀ name ∈ selected, name ∈ p.keys) ∧
    ∀ name ∈ projected.keys, name ∈ p.keys) (project read selected projected) := by
  induction selected generalizing projected with
  | nil => exact .pure ⟨nofun, fun _ h => h⟩
  | cons name selected ih =>
    refine .of_bind fun value s p s' hr => ?_
    obtain ⟨hselected, hprojected⟩ := ih s p s' hr
    have hset : ∀ key, key ∈ projected.keys ∨ key = name → key ∈ p.keys := by
      intro key hkey
      refine hprojected key ?_
      rw [Dict.keys_set]
      split
      · rcases hkey with h | rfl <;> assumption
      · simpa using hkey
    exact ⟨List.forall_mem_cons.mpr ⟨hset name (.inr rfl), hselected⟩, fun k h => hset k (.inl h)⟩

/-- Distinct new names are read one after another, and their bindings come in that order. -/
theorem project_ok {s s' : σ} {p : Dict String V} (hnodup : selected.Nodup)
    (hnew : ∀ name ∈ selected, name ∉ projected.keys)
    (hr : project read selected projected s = .ok p s') :
    ∃ vs, selected.mapM read s = .ok vs s' ∧ p.entries = projected.entries ++ selected.zip vs := by
  induction selected generalizing projected s with
  | nil =>
    cases hr
    exact ⟨[], rfl, (List.append_nil _).symm⟩
  | cons name selected ih =>
    obtain ⟨hfirst, hnodup⟩ := List.nodup_cons.mp hnodup
    obtain ⟨hname, hnew⟩ := List.forall_mem_cons.mp hnew
    obtain ⟨v, t, hread, hr⟩ := bind_eq_ok hr
    have hentries : (projected.set name v).entries = projected.entries ++ [(name, v)] := by
      rw [Dict.set, dif_neg hname]
      rfl
    have hrest : ∀ other ∈ selected, other ∉ (projected.set name v).keys := by
      intro other hother
      rw [Dict.keys_set, if_neg hname, List.mem_append, List.mem_singleton]
      rintro (h | rfl)
      · exact hnew other hother h
      · exact hfirst hother
    obtain ⟨vs, hvs, hp⟩ := ih hnodup hrest hr
    refine ⟨v :: vs, ?_, ?_⟩
    · rw [List.mapM_cons, bind_ok_apply _ hread, bind_ok_apply _ hvs]
      rfl
    · rw [hp, hentries, List.append_assoc]
      rfl

end Project

/-! ## Masked names -/

/-- The two records differ at most in what the attributes in `S` are. -/
def Agree (S : String → Prop) : Option (Obj ε σ V) → Option (Obj ε σ V) → Prop
  | none, none => True
  | some o, some o' => o.is_dataclass = o'.is_dataclass ∧ o.is_type = o'.is_type ∧
      o.dataclass_fields = o'.dataclass_fields ∧ ∀ name, ¬ S name → o.getattr name = o'.getattr name
  | _, _ => False

section Masked

variable {x : Native ε σ V} {S : String → Prop} {record record' : Option (Obj ε σ V)}
  {masked : Finset String} {selected masks : List String} {values values' : Dict String V}
  {fields masked_fields : M ε σ (List String)}

theorem Agree.declared (h : Agree S record record') : declared record = declared record' := by
  match record, record' with
  | none, none => rfl
  | some _, some _ => exact h.2.2.1

theorem Agree.accepted (h : Agree S record record') :
    (record.any fun o => !o.is_dataclass || o.is_type) =
      record'.any fun o => !o.is_dataclass || o.is_type := by
  match record, record' with
  | none, none => rfl
  | some _, some _ => rw [Option.any_some, Option.any_some, h.1, h.2.1]

theorem Agree.getattr (h : Agree S record record') {name : String} (hname : ¬ S name) :
    getattr record name = getattr record' name := by
  match record, record' with
  | none, none => rfl
  | some _, some _ => exact h.2.2.2 name hname

/-- A masked attribute is not read. -/
theorem read_congr (h : Agree S record record') (hS : ∀ name, S name → name ∈ masked) :
    read x record masked = read x record' masked := by
  funext name
  unfold read
  split
  · rfl
  · rename_i hname
    exact h.getattr fun hs => hname (hS name hs)

/-- What an accepted selection is. -/
theorem not_conflicting {declared keys : List String}
    (h : conflicting declared selected masks keys = false) :
    (∀ name ∈ selected, name ∈ declared) ∧ selected.Nodup ∧ (∀ name ∈ selected, name ∉ keys) ∧
      masks.Nodup ∧ ∀ name ∈ masks, name ∈ selected ∨ name ∈ keys := by
  simp only [conflicting, Bool.or_eq_false_iff, List.any_eq_false, bne_eq_false_iff_eq,
    decide_eq_true_eq, Bool.and_eq_true, not_and, not_not] at h
  obtain ⟨⟨⟨⟨hdeclared, hselected⟩, hkeys⟩, hmasks⟩, hknown⟩ := h
  refine ⟨hdeclared, ?_, hkeys, ?_, fun name hname => ?_⟩
  · exact List.dedup_eq_self.mp (selected.dedup_sublist.eq_of_length hselected)
  · exact List.dedup_eq_self.mp (masks.dedup_sublist.eq_of_length hmasks)
  · exact or_iff_not_imp_left.mpr (hknown name hname)

theorem render_congr {event : String} (h : Agree S record record')
    (hkeys : values.keys = values'.keys) (hvalues : ∀ name, ¬ S name →
      values.get? name = values'.get? name) (hS : ∀ name, S name → name ∈ masked)
    (hknown : ∀ name ∈ masked, name ∈ selected ∨ name ∈ values.keys) :
    render x event record selected masked values =
      render x event record' selected masked values' := by
  unfold render
  rw [read_congr h hS]
  refine project_keys.bind_congr fun projected ⟨hprojected, _⟩ => ?_
  have hlines : x.make_repr_lines (projected.update values) masked =
      x.make_repr_lines (projected.update values') masked := by
    refine x.redacts _ _ _ ?_ (fun name hname => ?_) fun name hname => ?_
    · rw [Dict.keys_update, Dict.keys_update, hkeys]
    · rw [Dict.keys_update, List.mem_append, List.mem_filter]
      by_cases hin : name ∈ projected.keys
      · exact .inl hin
      · refine .inr ⟨(hknown name hname).resolve_left fun hs => hin (hprojected name hs), ?_⟩
        simpa using hin
    · rw [Dict.get?_update, Dict.get?_update, hvalues name fun hs => hname (hS name hs)]
  rw [hlines]

/-- **Masked names are replaced before anything is read**: they have no effect on the message, on
what is raised, or on any state. -/
theorem event_message_congr {event : Option String} (h : Agree S record record')
    (hkeys : values.keys = values'.keys)
    (hvalues : ∀ name, ¬ S name → values.get? name = values'.get? name)
    (hS : Returns (fun masks => ∀ name, S name → name ∈ masks) masked_fields) :
    event_message x event record fields masked_fields values =
      event_message x event record' fields masked_fields values' := by
  unfold event_message
  cases event with
  | none => rfl
  | some event =>
    dsimp only
    rw [h.accepted, h.declared, hkeys]
    split
    · rfl
    · refine bind_congr fun selected => hS.bind_congr fun masks hmasks => ?_
      split
      · rfl
      · rename_i hvalid
        obtain ⟨-, -, -, -, hknown⟩ := not_conflicting (eq_false_of_ne_true hvalid)
        rw [← hkeys] at hknown
        refine render_congr h hkeys hvalues (fun name hs => List.mem_toFinset.mpr (hmasks name hs))
          fun name hname => hknown name (List.mem_toFinset.mp hname)

/-- **An invalid selection reads nothing.** -/
theorem event_message_invalid {event : Option String} {s : σ}
    (h : Agree (fun _ => True) record record')
    (hbad : ∀ selected s₁ masks s₂, fields s = .ok selected s₁ → masked_fields s₁ = .ok masks s₂ →
      conflicting (declared record) selected masks values.keys = true) :
    event_message x event record fields masked_fields values s =
      event_message x event record' fields masked_fields values s := by
  unfold event_message
  cases event with
  | none => rfl
  | some event =>
    dsimp only
    rw [h.accepted, h.declared] at *
    split
    · rfl
    · refine bind_apply_congr fun selected s₁ h₁ => bind_apply_congr fun masks s₂ h₂ => ?_
      rw [hbad selected s₁ masks s₂ h₁ h₂, if_pos rfl, if_pos rfl]

/-- What is in a message: the title, the selected fields in their order, each read once unless it is
masked, and the values in theirs. -/
def Shown (x : Native ε σ V) (event : Option String) (record : Option (Obj ε σ V))
    (fields masked_fields : M ε σ (List String)) (values : Dict String V) (s : σ) (text : String)
    (s' : σ) : Prop :=
  ∃ title selected masks vs shown lines event₀ projection s₁ s₂ s₃ s₄,
    event = some event₀ ∧ fields s = .ok selected s₁ ∧ masked_fields s₁ = .ok masks s₂ ∧
    (selected ++ values.keys).Nodup ∧ masks.Nodup ∧
    (∀ name ∈ masks, name ∈ selected ++ values.keys) ∧
    shown = masks.toFinset ∧ selected.mapM (read x record shown) s₂ = .ok vs s₃ ∧
    x.safe_repr event₀ s₃ = .ok title s₄ ∧
    projection.entries = selected.zip vs ++ values.entries ∧
    x.make_repr_lines projection shown s₄ = .ok lines s' ∧
    text = x.make_multi_log_lines title lines

theorem event_message_shown {event : Option String} {s s' : σ} {text : String}
    (hr : event_message x event record fields masked_fields values s = .ok text s') :
    Shown x event record fields masked_fields values s text s' := by
  unfold event_message at hr
  cases event with
  | none => cases hr
  | some event =>
    dsimp only at hr
    split at hr
    · cases hr
    · obtain ⟨selected, s₁, h₁, hr⟩ := bind_eq_ok hr
      obtain ⟨masks, s₂, h₂, hr⟩ := bind_eq_ok hr
      split at hr
      · cases hr
      · rename_i hvalid
        obtain ⟨-, hselected, hdisjoint, hmasks, hknown⟩ :=
          not_conflicting (eq_false_of_ne_true hvalid)
        obtain ⟨projected, s₃, h₃, hr⟩ := bind_eq_ok hr
        obtain ⟨title, s₄, h₄, hr⟩ := bind_eq_ok hr
        obtain ⟨lines, s₅, h₅, hr⟩ := bind_eq_ok hr
        cases hr
        obtain ⟨vs, hvs, hp⟩ := project_ok hselected (fun _ _ => List.not_mem_nil) h₃
        have hkeys : ∀ name ∈ projected.keys, name ∈ selected := by
          intro name hname
          rw [Dict.keys, hp] at hname
          obtain ⟨⟨_, v⟩, he, rfl⟩ := List.mem_map.mp hname
          exact (List.of_mem_zip he).1
        have hprojection := Dict.entries_update (e := values)
          fun name hname hin => hdisjoint name (hkeys name hin) hname
        rw [hp] at hprojection
        exact ⟨title, selected, masks, vs, _, lines, event, _, s₁, s₂, s₃, s₄, rfl, h₁, h₂,
          List.nodup_append'.mpr ⟨hselected, values.nodup, fun name h h' => hdisjoint name h h'⟩,
          hmasks, fun name hname => List.mem_append.mpr (hknown name hname), rfl, hvs, h₄,
          hprojection, h₅, rfl⟩

end Masked

section Events

variable {x : Native ε σ V}

/-- **An event says what was selected and not masked, and nothing else.** What is under a masked
name, in the record or in the values, has no effect: on the record that is logged, on what is
raised, or on any state, since it is not read. Where the selection is invalid, no attribute of the
record is read at all. A message shows the selected fields and then the values, in their orders. -/
theorem events_masked {S : String → Prop} {record record' : Option (Obj ε σ V)}
    {values values' : Dict String V} {fields masked_fields : M ε σ (List String)}
    (event : Option String) (level : Int) (compact : V) (hrecord : Agree S record record')
    (hkeys : values.keys = values'.keys)
    (hvalues : ∀ name, ¬ S name → values.get? name = values'.get? name)
    (hS : Returns (fun masks => ∀ name, S name → name ∈ masks) masked_fields) :
    log_event x event level record fields masked_fields compact values =
      log_event x event level record' fields masked_fields compact values' ∧
    (∀ s other, Agree (fun _ => True) record other →
      (∀ selected s₁ masks s₂, fields s = .ok selected s₁ → masked_fields s₁ = .ok masks s₂ →
        conflicting (declared record) selected masks values.keys = true) →
      event_message x event record fields masked_fields values s =
        event_message x event other fields masked_fields values s) ∧
    ∀ s text s', event_message x event record fields masked_fields values s = .ok text s' →
      Shown x event record fields masked_fields values s text s' := by
  refine ⟨?_, fun s other hother hbad => event_message_invalid hother hbad,
    fun s text s' hr => event_message_shown hr⟩
  unfold log_event
  rw [event_message_congr hrecord hkeys hvalues hS]

end Events

/-! ## A masked field -/

/-- An order with a token. -/
def order (token : M Unit (List String) String) : Obj Unit (List String) String where
  is_dataclass := true
  is_type := false
  dataclass_fields := ["order", "token"]
  getattr name :=
    if name = "order" then pure "42"
    else if name = "token" then token
    else throw (.AttributeError name)

/-- A native library that shows masked values as the real one does. -/
def native : Native Unit (List String) String where
  None := "None"
  context _ := ⟨none, none, none, none, none⟩
  backend_name := "orders"
  boolean _ _ := pure ()
  isEnabledFor _ := pure true
  safe_repr := pure
  make_repr_lines p masked := pure (p.keys.map fun name =>
    name ++ ": " ++ if name ∈ masked then "*masked*" else (p.get? name).getD "")
  make_multi_log_lines title lines := "\n    ".intercalate (title :: lines)
  log call := modify (call.args ++ ·)
  redacts p p' masked hkeys _ hvalues := by
    rw [hkeys]
    refine congrArg pure (List.map_congr_left fun name _ => ?_)
    by_cases hname : name ∈ masked
    · rw [if_pos hname, if_pos hname]
    · rw [if_neg hname, if_neg hname, hvalues name hname]

theorem events_masked_token :
    log_event native (some "order ready") 20 (some (order (throw (.raised ()))))
        (pure ["order", "token"]) (pure ["token"]) "False" Dict.empty =
      log_event native (some "order ready") 20 (some (order (pure "secret")))
        (pure ["order", "token"]) (pure ["token"]) "False" Dict.empty ∧
    Lib.Proc.final (log_event native (some "order ready") 20 (some (order (throw (.raised ()))))
        (pure ["order", "token"]) (pure ["token"]) "False" Dict.empty) [] =
      ["order ready\n    order: 42\n    token: *masked*"] := by
  refine ⟨?_, by decide⟩
  refine (events_masked (S := fun name => name = "token") (some "order ready") 20 "False" ?_ rfl
    (fun _ _ => rfl) ?_).1
  · refine ⟨rfl, rfl, rfl, fun name hname => ?_⟩
    simp only [order, if_neg hname]
  · exact .pure fun name hname => by simp [hname]

end LclFastapi.LogEvents
