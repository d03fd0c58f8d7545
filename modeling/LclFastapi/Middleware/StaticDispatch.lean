import LclFastapi.Middleware.RequestLogging
import Mathlib.Logic.Function.Basic

/-!
# Classification and dispatch of static requests (`middleware/static_logging.py`)

`matches_static` and `is_static_get` over scopes that are mappings on a heap, beside the dispatch of
the router they anticipate.

* `route.matches` is a parameter of each route. It is called with a mapping, returns what it found,
  and may rebind entries of this mapping (`Matcher`); it does not reach any other.
* `{**scope, **child}` and `dict(scope)` are new mappings; `scope.update(child)` of the dispatch is
  the same merge in place.
* `dispatch` is the router's own walk: the first full match gets the request. A route ends it at
  its endpoint. A mount or host hands it to its application, which serves it when it is a
  `StaticFiles` instance and dispatches over its own table otherwise. A table without a full match
  ends at no endpoint.
* `Named`: a full match names the endpoint or application of its route in the scope it adds, as the
  native routes do whose application no middleware of the mount wraps.

Results:
* `matches_static_dispatch`: the walk over the copies finds what the dispatch finds, a matcher that
  raises included.
* **`static_classification`**: a GET is classified as static if and only if its dispatch ends at a
  `StaticFiles` instance; a matcher that fails makes it not static; the scope is left as it was.
* `is_static_get_ofRoutes`: the classification of the request model (`RequestLogging`) is this one,
  for matchers that read what was merged before them.
-/

namespace LclFastapi.Middleware.StaticDispatch

/-! ## Scopes -/

/-- A value of a scope. -/
inductive Obj (α : Type) where
  | str (s : String)
  /-- An instance of `StaticFiles` or of a class derived from it. -/
  | static_files (id : Nat)
  | other (a : α)

/-- `isinstance(obj, StaticFiles)`. -/
def Obj.is_static {α : Type} : Obj α → Bool
  | .static_files _ => true
  | _ => false

/-- The bindings of a mapping. -/
abbrev Mapping (α : Type) := String → Option (Obj α)

/-- `{**scope, **child}`. -/
def Mapping.merge {α : Type} (scope child : Mapping α) : Mapping α :=
  fun key => (child key).or (scope key)

/-- The mappings of the process, by identity. -/
structure Heap (α : Type) where
  mapping : Nat → Mapping α
  next : Nat

variable {α : Type}

/-- A new mapping. -/
def Heap.alloc (h : Heap α) (m : Mapping α) : Heap α where
  mapping := Function.update h.mapping h.next m
  next := h.next + 1

/-- A mapping with other bindings. -/
def Heap.put (h : Heap α) (ref : Nat) (m : Mapping α) : Heap α :=
  { h with mapping := Function.update h.mapping ref m }

/-! ## Routes -/

/-- What `route.matches` does. -/
inductive Found (α : Type) where
  | NONE
  | PARTIAL
  | FULL (child : Mapping α)
  | raised (e : Exc)

/-- `route.matches`: what it does, and what it leaves of the mapping it is given. -/
abbrev Matcher (α : Type) := Mapping α → Found α × Mapping α

/-- A route, whose matcher may change the scope. -/
inductive Route (α : Type) where
  | route (found : Matcher α) (endpoint : Obj α)
  /-- A `Mount` or a `Host`, with the application and its route table. -/
  | mount (found : Matcher α) (app : Obj α) (routes : List (Route α))

/-- `route.matches`. -/
def Route.found : Route α → Matcher α
  | .route found _ | .mount found _ _ => found

/-! ## Classification -/

mutual

/-- One pass of the loop of `matches_static`: the result, if the loop ends there. -/
def Route.pass : Route α → Nat → Heap α → Option (Except Exc Bool) × Heap α
  | .route found _, scope, h =>
    let h' := h.put scope (found (h.mapping scope)).2
    match (found (h.mapping scope)).1 with
    | .FULL child => (some (.ok ((child "endpoint").any Obj.is_static)), h')
    | .NONE | .PARTIAL => (none, h')
    | .raised e => (some (.error e), h')
  | .mount found _ routes, scope, h =>
    let h' := h.put scope (found (h.mapping scope)).2
    match (found (h.mapping scope)).1 with
    | .FULL child =>
      if (child "endpoint").any Obj.is_static then (some (.ok true), h')
      else
        let result := matches_static routes h'.next (h'.alloc ((h'.mapping scope).merge child))
        (some result.1, result.2)
    | .NONE | .PARTIAL => (none, h')
    | .raised e => (some (.error e), h')

/-- `matches_static(routes, scope)`. -/
def matches_static : List (Route α) → Nat → Heap α → Except Exc Bool × Heap α
  | [], _, h => (.ok false, h)
  | route :: routes, scope, h =>
    match route.pass scope h with
    | (some result, h') => (result, h')
    | (none, h') => matches_static routes scope h'

end

/-- `scope["method"]` of a mapping that has none. -/
def missing_method : Exc := ⟨0, .exception, "KeyError", "method"⟩

/-- `is_static_get(router, scope)`. -/
def is_static_get (router : List (Route α)) (scope : Nat) (h : Heap α) :
    Except Exc Bool × Heap α :=
  match h.mapping scope "method" with
  | none => (.error missing_method, h)
  | some (.str "GET") =>
    match matches_static router h.next (h.alloc (h.mapping scope)) with
    | (.error e, h') => (if e.cls = .base then .error e else .ok false, h')
    | (.ok static_resource, h') => (.ok static_resource, h')
  | some _ => (.ok false, h)

/-! ## Dispatch -/

mutual

/-- A route with a full match ends the dispatch; another leaves the scope to the next route. -/
def Route.dispatch : Route α → Mapping α → Except Exc (Option (Obj α)) ⊕ Mapping α
  | .route found endpoint, scope =>
    match (found scope).1 with
    | .FULL _ => .inl (.ok (some endpoint))
    | .NONE | .PARTIAL => .inr (found scope).2
    | .raised e => .inl (.error e)
  | .mount found app routes, scope =>
    match (found scope).1 with
    | .FULL child =>
      match app with
      | .static_files id => .inl (.ok (some (.static_files id)))
      | _ => .inl (dispatch routes ((found scope).2.merge child))
    | .NONE | .PARTIAL => .inr (found scope).2
    | .raised e => .inl (.error e)

/-- Where a request ends: an endpoint, or none. -/
def dispatch : List (Route α) → Mapping α → Except Exc (Option (Obj α))
  | [], _ => .ok none
  | route :: routes, scope =>
    match route.dispatch scope with
    | .inl result => result
    | .inr scope' => dispatch routes scope'

end

/-- Every full match names what its route hands the request to. -/
inductive Named : List (Route α) → Prop
  | nil : Named []
  | route {found : Matcher α} {endpoint : Obj α} {routes : List (Route α)}
      (hfound : ∀ scope child, (found scope).1 = .FULL child → child "endpoint" = some endpoint)
      (hroutes : Named routes) : Named (.route found endpoint :: routes)
  | mount {found : Matcher α} {app : Obj α} {table routes : List (Route α)}
      (hfound : ∀ scope child, (found scope).1 = .FULL child → child "endpoint" = some app)
      (htable : Named table) (hroutes : Named routes) : Named (.mount found app table :: routes)

/-- The classification of the table reaches a matcher that raises `e`. -/
inductive Raises (e : Exc) : List (Route α) → Mapping α → Prop
  | here {route : Route α} {routes : List (Route α)} {scope : Mapping α}
      (h : (route.found scope).1 = .raised e) : Raises e (route :: routes) scope
  | past {route : Route α} {routes : List (Route α)} {scope : Mapping α}
      (h : (route.found scope).1 = .NONE ∨ (route.found scope).1 = .PARTIAL)
      (hnext : Raises e routes (route.found scope).2) : Raises e (route :: routes) scope
  | inside {found : Matcher α} {app : Obj α} {table routes : List (Route α)}
      {scope child : Mapping α} (h : (found scope).1 = .FULL child)
      (hstatic : (child "endpoint").any Obj.is_static = false)
      (htable : Raises e table ((found scope).2.merge child)) :
      Raises e (.mount found app table :: routes) scope

variable {h : Heap α} {m : Mapping α} {scope ref : Nat} {routes : List (Route α)} {e : Exc}

/-! ## Frames -/

@[simp] theorem mapping_alloc : (h.alloc m).mapping h.next = m := Function.update_self ..

theorem mapping_alloc_of_lt (href : ref < h.next) :
    (h.alloc m).mapping ref = h.mapping ref :=
  Function.update_of_ne (Nat.ne_of_lt href) ..

@[simp] theorem mapping_put : (h.put scope m).mapping scope = m := Function.update_self ..

theorem mapping_put_of_ne (hne : ref ≠ scope) : (h.put scope m).mapping ref = h.mapping ref :=
  Function.update_of_ne hne ..

/-- What a part of the classification leaves: every mapping but the one it inspects. -/
structure Frame (scope : Nat) (h h' : Heap α) : Prop where
  mapping : ∀ ref, ref ≠ scope → ref < h.next → h'.mapping ref = h.mapping ref
  next : h.next ≤ h'.next

theorem Frame.put : Frame scope h (h.put scope m) :=
  ⟨fun _ hne _ => mapping_put_of_ne hne, Nat.le_refl _⟩

theorem Frame.trans {h' h'' : Heap α} (hf : Frame scope h h') (hf' : Frame scope h' h'') :
    Frame scope h h'' :=
  ⟨fun ref hne href =>
      (hf'.mapping ref hne (Nat.lt_of_lt_of_le href hf.next)).trans (hf.mapping ref hne href),
    Nat.le_trans hf.next hf'.next⟩

/-- The walk of a mounted table inspects a mapping of its own. -/
theorem Frame.of_alloc {h' : Heap α} (hf : Frame h.next (h.alloc m) h') : Frame scope h h' := by
  refine ⟨fun ref _ href => ?_, Nat.le_of_succ_le hf.next⟩
  rw [hf.mapping ref (Nat.ne_of_lt href) (Nat.lt_succ_of_lt href), mapping_alloc_of_lt href]

mutual

theorem Route.pass_frame :
    ∀ (route : Route α) (scope : Nat) (h : Heap α), Frame scope h (route.pass scope h).2
  | .route found endpoint, scope, h => by
    rw [Route.pass]
    cases (found (h.mapping scope)).1 <;> exact Frame.put
  | .mount found app routes, scope, h => by
    rw [Route.pass]
    cases (found (h.mapping scope)).1 with
    | FULL child =>
      have htable := matches_static_frame routes h.next
        ((h.put scope (found (h.mapping scope)).2).alloc
          (((h.put scope (found (h.mapping scope)).2).mapping scope).merge child))
      have hput : Frame scope h (h.put scope (found (h.mapping scope)).2) := Frame.put
      dsimp only
      split
      · exact hput
      · exact hput.trans (.of_alloc htable)
    | _ => exact Frame.put

theorem matches_static_frame :
    ∀ (routes : List (Route α)) (scope : Nat) (h : Heap α),
      Frame scope h (matches_static routes scope h).2
  | [], _, _ => ⟨fun _ _ _ => rfl, Nat.le_refl _⟩
  | route :: routes, scope, h => by
    have hpass := Route.pass_frame route scope h
    rw [matches_static]
    cases hresult : route.pass scope h with
    | mk result h' =>
      rw [hresult] at hpass
      cases result with
      | some result => exact hpass
      | none => exact hpass.trans (matches_static_frame routes scope h')

end

/-! ## Agreement -/

/-- **The classification finds what the dispatch finds.** -/
theorem matches_static_dispatch (hn : Named routes) :
    ∀ (scope : Nat) (h : Heap α), (matches_static routes scope h).1 =
      (dispatch routes (h.mapping scope)).map fun endpoint => endpoint.any Obj.is_static := by
  induction hn with
  | nil => exact fun _ _ => rfl
  | @route found endpoint routes hfound hroutes ih =>
    intro scope h
    cases hmatch : (found (h.mapping scope)).1 with
    | FULL child =>
      simp only [matches_static, Route.pass, dispatch, Route.dispatch, hmatch]
      rw [hfound _ _ hmatch]
      rfl
    | NONE | PARTIAL =>
      simp only [matches_static, Route.pass, dispatch, Route.dispatch, hmatch]
      rw [ih, mapping_put]
    | raised e =>
      simp only [matches_static, Route.pass, dispatch, Route.dispatch, hmatch]
      rfl
  | @mount found app table routes hfound htable hroutes ihtable ih =>
    intro scope h
    cases hmatch : (found (h.mapping scope)).1 with
    | FULL child =>
      have hchild := hfound _ _ hmatch
      cases app with
      | static_files id =>
        simp only [matches_static, Route.pass, dispatch, Route.dispatch, hmatch, hchild]
        rfl
      | str | other =>
        simp only [matches_static, Route.pass, dispatch, Route.dispatch, hmatch, hchild]
        rw [if_neg (by simp [Obj.is_static]), ihtable, mapping_alloc, mapping_put]
    | NONE | PARTIAL =>
      simp only [matches_static, Route.pass, dispatch, Route.dispatch, hmatch]
      rw [ih, mapping_put]
    | raised e =>
      simp only [matches_static, Route.pass, dispatch, Route.dispatch, hmatch]
      rfl

/-! ## Raising matchers -/

/-- A route without a full match leaves the loop to the next one. -/
theorem Route.pass_past {route : Route α} (hmatch : (route.found (h.mapping scope)).1 = .NONE ∨
    (route.found (h.mapping scope)).1 = .PARTIAL) :
    route.pass scope h = (none, h.put scope (route.found (h.mapping scope)).2) := by
  cases route <;> simp only [Route.found] at hmatch <;> rcases hmatch with hmatch | hmatch <;>
    simp only [Route.pass, Route.found, hmatch]

theorem Route.past_of_pass {route : Route α} {h' : Heap α}
    (hpass : route.pass scope h = (none, h')) :
    ((route.found (h.mapping scope)).1 = .NONE ∨ (route.found (h.mapping scope)).1 = .PARTIAL) ∧
      h' = h.put scope (route.found (h.mapping scope)).2 := by
  have hmatch : (route.found (h.mapping scope)).1 = .NONE ∨
      (route.found (h.mapping scope)).1 = .PARTIAL := by
    cases route with
    | route found endpoint =>
      cases hfound : (found (h.mapping scope)).1 <;> simp_all [Route.pass, Route.found]
    | mount found app table =>
      cases hfound : (found (h.mapping scope)).1 with
      | FULL child =>
        simp only [Route.pass, hfound] at hpass
        split at hpass <;> cases hpass
      | _ => simp_all [Route.pass, Route.found]
  rw [Route.pass_past hmatch] at hpass
  exact ⟨hmatch, (Prod.mk.inj hpass).2.symm⟩

/-- A matcher that raises ends the classification. -/
theorem Raises.matches_static (hr : Raises e routes (h.mapping scope)) :
    (matches_static routes scope h).1 = .error e := by
  generalize hm : h.mapping scope = m at hr
  induction hr generalizing scope h with
  | @here route routes m hraise =>
    subst hm
    cases route <;>
      simp only [Route.found] at hraise <;>
      simp only [StaticDispatch.matches_static, Route.pass, hraise]
  | @past route routes m hmatch hnext ih =>
    subst hm
    rw [StaticDispatch.matches_static, Route.pass_past hmatch]
    exact ih mapping_put
  | @inside found app table routes m child hmatch hstatic htable ih =>
    subst hm
    simp only [StaticDispatch.matches_static, Route.pass, hmatch, hstatic]
    rw [if_neg nofun]
    exact ih (by rw [mapping_alloc, mapping_put])

mutual

theorem Route.pass_raises :
    ∀ (route : Route α) (routes : List (Route α)) (scope : Nat) (h : Heap α) (e : Exc),
      (route.pass scope h).1 = some (.error e) → Raises e (route :: routes) (h.mapping scope)
  | .route found endpoint, routes, scope, h, e, hraise => by
    cases hfound : (found (h.mapping scope)).1 with
    | raised e' =>
      simp only [Route.pass, hfound, Option.some.injEq, Except.error.injEq] at hraise
      exact .here (by rw [← hraise]; exact hfound)
    | _ => simp [Route.pass, hfound] at hraise
  | .mount found app table, routes, scope, h, e, hraise => by
    cases hfound : (found (h.mapping scope)).1 with
    | raised e' =>
      simp only [Route.pass, hfound, Option.some.injEq, Except.error.injEq] at hraise
      exact .here (by rw [← hraise]; exact hfound)
    | FULL child =>
      simp only [Route.pass, hfound] at hraise
      split at hraise
      · cases hraise
      · have htable := matches_static_raises table _ _ e (Option.some.inj hraise)
        rw [mapping_alloc, mapping_put] at htable
        exact .inside hfound (Bool.eq_false_iff.mpr ‹_›) htable
    | _ => simp [Route.pass, hfound] at hraise

theorem matches_static_raises :
    ∀ (routes : List (Route α)) (scope : Nat) (h : Heap α) (e : Exc),
      (matches_static routes scope h).1 = .error e → Raises e routes (h.mapping scope)
  | [], _, _, _, hraise => nomatch hraise
  | route :: routes, scope, h, e, hraise => by
    rw [matches_static] at hraise
    cases hpass : route.pass scope h with
    | mk result h' =>
      rw [hpass] at hraise
      cases result with
      | some result =>
        exact Route.pass_raises route routes scope h e (by rw [hpass]; exact congrArg some hraise)
      | none =>
        obtain ⟨hmatch, rfl⟩ := Route.past_of_pass hpass
        have hnext := matches_static_raises routes scope _ e hraise
        rw [mapping_put] at hnext
        exact .past hmatch hnext

end

/-! ## Static requests -/

/-- A GET is classified over a copy of its scope. -/
theorem is_static_get_of_get (hget : h.mapping scope "method" = some (.str "GET")) :
    is_static_get routes scope h =
      match matches_static routes h.next (h.alloc (h.mapping scope)) with
      | (.error e, h') => (if e.cls = .base then .error e else .ok false, h')
      | (.ok static_resource, h') => (.ok static_resource, h') := by
  rw [is_static_get, hget]
  rfl

theorem is_static_get_frame (hscope : scope < h.next) :
    (is_static_get routes scope h).2.mapping scope = h.mapping scope := by
  have hwalk := matches_static_frame routes h.next (h.alloc (h.mapping scope))
  have hkept := hwalk.mapping scope (Nat.ne_of_lt hscope) (Nat.lt_succ_of_lt hscope)
  rw [mapping_alloc_of_lt hscope] at hkept
  unfold is_static_get
  split
  · rfl
  · cases hresult : matches_static routes h.next (h.alloc (h.mapping scope)) with
    | mk result h' =>
      rw [hresult] at hkept
      cases result <;> exact hkept
  · rfl

/-- **Static classification agrees with dispatch** while no matcher raises. An `Exception` of a
matcher makes the request not static, and the scope is left as it was. -/
theorem static_classification (hn : Named routes) (hscope : scope < h.next)
    (hget : h.mapping scope "method" = some (.str "GET")) :
    ((∀ e, ¬ Raises e routes (h.mapping scope)) →
      ∃ static_resource, (is_static_get routes scope h).1 = .ok static_resource ∧
        (static_resource = true ↔ ∃ endpoint,
          dispatch routes (h.mapping scope) = .ok (some endpoint) ∧ endpoint.is_static = true)) ∧
    (∀ e, Raises e routes (h.mapping scope) → e.cls ≠ .base →
      (is_static_get routes scope h).1 = .ok false) ∧
    (is_static_get routes scope h).2.mapping scope = h.mapping scope := by
  have hcopy : (h.alloc (h.mapping scope)).mapping h.next = h.mapping scope := mapping_alloc
  refine ⟨fun hquiet => ?_, fun e hraises hcls => ?_, is_static_get_frame hscope⟩
  · have hagree := matches_static_dispatch hn h.next (h.alloc (h.mapping scope))
    rw [hcopy] at hagree
    rw [is_static_get_of_get hget]
    cases hresult : matches_static routes h.next (h.alloc (h.mapping scope)) with
    | mk result h' =>
      rw [hresult] at hagree
      cases result with
      | error e =>
        have hraises := matches_static_raises routes h.next (h.alloc (h.mapping scope)) e
          (by rw [hresult])
        exact absurd (hcopy ▸ hraises) (hquiet e)
      | ok static_resource =>
        refine ⟨static_resource, rfl, ?_⟩
        cases hdispatch : dispatch routes (h.mapping scope) with
        | error e =>
          rw [hdispatch] at hagree
          cases hagree
        | ok endpoint =>
          rw [hdispatch] at hagree
          rw [Except.ok.inj hagree]
          cases endpoint <;> simp
  · have hraise : (matches_static routes h.next (h.alloc (h.mapping scope))).1 = .error e :=
      (hcopy.symm ▸ hraises : Raises e routes _).matches_static
    rw [is_static_get_of_get hget]
    cases hresult : matches_static routes h.next (h.alloc (h.mapping scope)) with
    | mk result h' =>
      rw [hresult] at hraise
      subst hraise
      exact if_neg hcls

section Nested

/-- A full match that names an object. -/
def full (endpoint : Obj Unit) : Matcher Unit := fun scope =>
  (.FULL fun key => if key = "endpoint" then some endpoint else none, scope)

/-- A route for another method, before a mounted router of static files. -/
def table : List (Route Unit) :=
  [.route (fun scope => (.PARTIAL, scope)) (.other ()),
    .mount (full (.other ())) (.other ()) [.mount (full (.static_files 0)) (.static_files 0) []]]

theorem full_named {endpoint : Obj Unit} (scope child : Mapping Unit)
    (h : (full endpoint scope).1 = .FULL child) : child "endpoint" = some endpoint := by
  rw [← Found.FULL.inj h]
  rfl

theorem table_named : Named table :=
  .route (fun _ _ h => nomatch h) (.mount full_named (.mount full_named .nil .nil) .nil)

/-- The scope of a GET. -/
def request : Heap Unit where
  mapping _ key := if key = "method" then some (.str "GET") else none
  next := 1

theorem static_classification_nested :
    (is_static_get table 0 request).1 = .ok true ∧
      (is_static_get table 0 request).2.mapping 0 = request.mapping 0 := by
  have hquiet : ∀ e, ¬ Raises e table (request.mapping 0) := fun e hr => by
    have hraise : (matches_static table 0 request).1 = .error e := hr.matches_static
    have hresult : (matches_static table 0 request).1 = .ok true := rfl
    cases hraise.symm.trans hresult
  have hscope : 0 < request.next := by decide
  obtain ⟨hagree, -, hkept⟩ := static_classification table_named hscope rfl
  obtain ⟨static_resource, hresult, hiff⟩ := hagree hquiet
  rw [hresult, hiff.mpr ⟨.static_files 0, rfl, rfl⟩]
  exact ⟨rfl, hkept⟩

end Nested

/-! ## The classification of requests -/

/-- The children merged so far, where a scope keeps them. -/
def merged (scope : Mapping (List Child)) : List Child :=
  match scope "children" with
  | some (.other children) => children
  | _ => []

/-- The scope that a match adds, with the children so far. -/
def Child.bindings (children : List Child) (child : Child) : Mapping (List Child)
  | "endpoint" => some (if child.static_files then .static_files 0 else .str "endpoint")
  | "children" => some (.other (children ++ [child]))
  | _ => none

/-- A matcher that reads the children merged so far. -/
def ofChildren (found : List Child → Matched) : Matcher (List Child) := fun scope =>
  match found (merged scope) with
  | .NONE => (.NONE, scope)
  | .PARTIAL => (.PARTIAL, scope)
  | .FULL child => (.FULL (Child.bindings (merged scope) child), scope)
  | .raised e => (.raised e, scope)

mutual

/-- A route of the request model, over mappings. -/
def ofRoute : Middleware.Route → Route (List Child)
  | .mk true found routes => .mount (ofChildren found) (.str "endpoint") (ofRoutes routes)
  | .mk false found _ => .route (ofChildren found) (.str "endpoint")

/-- The routes of a table. -/
def ofRoutes : List Middleware.Route → List (Route (List Child))
  | [] => []
  | route :: routes => ofRoute route :: ofRoutes routes

end

theorem merged_merge (m : Mapping (List Child)) (children : List Child) (child : Child) :
    merged (m.merge (Child.bindings children child)) = children ++ [child] := rfl

theorem static_bindings (children : List Child) (child : Child) :
    (Child.bindings children child "endpoint").any Obj.is_static = child.static_files := by
  cases h : child.static_files <;> simp [Child.bindings, h, Obj.is_static]

theorem ofChildren_kept (found : List Child → Matched) (m : Mapping (List Child)) :
    (ofChildren found m).2 = m := by
  unfold ofChildren
  split <;> rfl

theorem found_ofRoute (route : Middleware.Route) (m : Mapping (List Child)) :
    ((ofRoute route).found m).2 = m := by
  obtain ⟨mounts, found, routes⟩ := route
  cases mounts <;> exact ofChildren_kept found m

mutual

theorem pass_ofRoute :
    ∀ (route : Middleware.Route) (scope : Nat) (h : Heap (List Child)),
      ((ofRoute route).pass scope h).1 = route.pass (merged (h.mapping scope))
  | .mk true found routes, scope, h => by
    rw [ofRoute, Route.pass, Middleware.Route.pass]
    cases hfound : found (merged (h.mapping scope)) with
    | FULL child =>
      have htable := matches_static_ofRoutes routes (h.put scope (h.mapping scope)).next
        ((h.put scope (h.mapping scope)).alloc
          ((h.mapping scope).merge (Child.bindings (merged (h.mapping scope)) child)))
      rw [mapping_alloc, merged_merge] at htable
      simp only [ofChildren, hfound, static_bindings, mapping_put]
      cases child.static_files with
      | true => rfl
      | false => exact congrArg some htable
    | _ => simp only [ofChildren, hfound]
  | .mk false found routes, scope, h => by
    rw [ofRoute, Route.pass, Middleware.Route.pass]
    cases hfound : found (merged (h.mapping scope)) with
    | FULL child =>
      simp only [ofChildren, hfound, static_bindings]
      cases child.static_files <;> rfl
    | _ => simp only [ofChildren, hfound]

/-- **The request model classifies as the code does**, for matchers that read what was merged. -/
theorem matches_static_ofRoutes :
    ∀ (routes : List Middleware.Route) (scope : Nat) (h : Heap (List Child)),
      (matches_static (ofRoutes routes) scope h).1 =
        Middleware.matches_static routes (merged (h.mapping scope))
  | [], _, _ => rfl
  | route :: routes, scope, h => by
    have hhead := pass_ofRoute route scope h
    rw [ofRoutes, matches_static, Middleware.matches_static, ← hhead]
    cases hpass : (ofRoute route).pass scope h with
    | mk result h' =>
      cases result with
      | some result => rfl
      | none =>
        obtain ⟨-, rfl⟩ := Route.past_of_pass hpass
        have hkept : (h.put scope ((ofRoute route).found (h.mapping scope)).2).mapping scope =
            h.mapping scope := by
          rw [mapping_put, found_ofRoute]
        have hnext := matches_static_ofRoutes routes scope
          (h.put scope ((ofRoute route).found (h.mapping scope)).2)
        rw [hkept] at hnext
        exact hnext

end

/-- The same of a whole request, whose scope has merged nothing yet. -/
theorem is_static_get_ofRoutes {router : List Middleware.Route} {request : Middleware.Scope}
    {h : Heap (List Child)} (hmethod : h.mapping scope "method" = some (.str request.method))
    (hnew : merged (h.mapping scope) = []) :
    (is_static_get (ofRoutes router) scope h).1 = Middleware.is_static_get router request := by
  by_cases hget : request.method = "GET"
  · rw [hget] at hmethod
    have hwalk := matches_static_ofRoutes router h.next (h.alloc (h.mapping scope))
    rw [mapping_alloc, hnew] at hwalk
    rw [is_static_get_of_get hmethod, Middleware.is_static_get, if_neg (not_not.mpr hget), ← hwalk]
    cases hresult : matches_static (ofRoutes router) h.next (h.alloc (h.mapping scope)) with
    | mk result h' => cases result <;> rfl
  · rw [is_static_get, hmethod, Middleware.is_static_get, if_pos hget]
    split
    · rename_i hnone
      cases hnone
    · rename_i hsome
      exact absurd (Obj.str.inj (Option.some.inj hsome)) hget
    · rfl

end LclFastapi.Middleware.StaticDispatch
