import LclFastapi.Config

/-!
# Built-in routes (`routes.py`, `register_documentation` of `docs/swagger.py`)

The route table of an application and the two functions that add the built-in routes to it.

* `compile_path` is Starlette's compiler of path templates, which may raise. A route is added
  exactly when it does not.
* `Methods.none` is the attribute of a class-based endpoint: it answers every method, and a
  membership test on it raises.

**Headline:** `builtins_yield`, which says for which tables the built-ins yield to the business
routes: those where no membership test reaches a class-based endpoint (`Readable`).
-/

namespace LclFastapi.Routes

open Render (Result require bind_ok)
open Config (Settings settings_from_frame)

/-- The attribute `methods` of a route. -/
inductive Methods where
  /-- No attribute: a mount, a host or a WebSocket route. -/
  | absent
  | none
  | set (methods : List String)
  deriving DecidableEq

/-- What a route calls. -/
inductive Endpoint where
  | business (name : String)
  | health
  | shutdown
  | inspect_file_verbose
  | update_file_verbose
  | docs_page
  | schema_page
  /-- The mounted `StaticFiles` of the Swagger assets. -/
  | swagger_static
  deriving DecidableEq

/-- An entry of `app.routes`; an attribute it does not have is `none`. -/
structure Route where
  path : Option String
  methods : Methods
  endpoint : Endpoint
  include_in_schema : Option Bool
  status_code : Option Nat
  deriving DecidableEq

/-- What the two loops run over. -/
structure Builtin where
  path : String
  method : String
  endpoint : Endpoint
  enabled : Bool
  status_code : Option Nat
  deriving DecidableEq

/-- The route that `add_api_route` makes of a built-in. -/
def Builtin.route (b : Builtin) : Route where
  path := some b.path
  methods := .set [b.method]
  endpoint := b.endpoint
  include_in_schema := some false
  status_code := b.status_code

/-- `getattr(route, "path", None) == path and method in getattr(route, "methods", set())`. -/
def owns (path method : String) (route : Route) : Result Bool :=
  if route.path = some path then
    match route.methods with
    | .absent => .ok false
    | .none => .error "argument of type 'NoneType' is not a container or iterable"
    | .set methods => .ok (methods.contains method)
  else .ok false

/-- `any(... for route in app.routes)`, which stops at the first owner. -/
def anyOwns (path method : String) : List Route → Result Bool
  | [] => .ok false
  | route :: routes => do
    if ← owns path method route then return true
    anyOwns path method routes

section Register

variable (compile_path : String → Result Unit)

/-- `app.add_api_route`. -/
def add_api_route (routes : List Route) (b : Builtin) : Result (List Route) := do
  compile_path b.path
  return routes ++ [b.route]

/-- The body of the loops. -/
def register (routes : List Route) (b : Builtin) : Result (List Route) := do
  if !b.enabled then return routes
  if ← anyOwns b.path b.method routes then return routes
  add_api_route compile_path routes b

/-- The tuples of `register_internal_routes`. -/
def internal (settings : Settings) : List Builtin :=
  [⟨settings.health_path, "GET", .health, settings.health_enabled, none⟩,
    ⟨"/_lcl/shutdown", "POST", .shutdown, true, none⟩,
    ⟨"/_lcl/logging/verbose", "GET", .inspect_file_verbose, true, none⟩,
    ⟨"/_lcl/logging/verbose", "PUT", .update_file_verbose, true, some 202⟩]

/-- `register_internal_routes(app, settings, ...)`. -/
def register_internal_routes (settings : Settings) (routes : List Route) : Result (List Route) :=
  (internal settings).foldlM (register compile_path) routes

/-- The tuples of `register_documentation`; the pages are enabled together. -/
def documentation (settings : Settings) : List Builtin :=
  [⟨settings.docs_path, "GET", .docs_page, settings.docs_enabled, none⟩,
    ⟨settings.openapi_path, "GET", .schema_page, settings.docs_enabled, none⟩]

/-- `app.mount("/_lcl/static/swagger", ...)`. -/
def swagger_mount : Route where
  path := some "/_lcl/static/swagger"
  methods := .absent
  endpoint := .swagger_static
  include_in_schema := none
  status_code := none

/-- The documentation routes, with the mount of their assets. -/
def register_documentation (settings : Settings) (routes : List Route) : Result (List Route) := do
  if !settings.docs_enabled then return routes
  let routes ← (documentation settings).foldlM (register compile_path) routes
  return routes ++ [swagger_mount]

/-- The two calls of the lifespan. -/
def register_all (settings : Settings) (routes : List Route) : Result (List Route) := do
  let routes ← register_internal_routes compile_path settings routes
  register_documentation compile_path settings routes

end Register

/-! ## The rule -/

/-- The route has this exact path and accepts the method. -/
def accepts (path method : String) (route : Route) : Bool :=
  route.path == some path &&
    match route.methods with
    | .absent => false
    | .none => true
    | .set methods => methods.contains method

/-- The built-ins in their order. -/
def builtins (settings : Settings) : List Builtin :=
  internal settings ++ documentation settings

/-- The built-ins that the rule adds: the enabled ones that no route present accepts. -/
def added (present : List Route) : List Builtin → List Builtin
  | [] => []
  | b :: bs =>
    if b.enabled && !present.any (accepts b.path b.method) then
      b :: added (present ++ [b.route]) bs
    else added present bs

/-- The table that the rule demands. -/
structure Yields (settings : Settings) (routes table : List Route) : Prop where
  entries : table = routes ++ (added routes (builtins settings)).map Builtin.route ++
    if settings.docs_enabled then [swagger_mount] else []
  once : (added routes (builtins settings)).Pairwise fun a b =>
    (a.path, a.method) ≠ (b.path, b.method)
  business : ∀ b ∈ added routes (builtins settings), b ∈ builtins settings ∧ b.enabled = true ∧
    ∀ route ∈ routes, accepts b.path b.method route = false

variable {present routes : List Route} {bs : List Builtin} {b : Builtin} {path method : String}
variable {route : Route} {compile_path : String → Result Unit}

theorem accepts_route : accepts path method b.route = true ↔
    b.path = path ∧ method = b.method := by
  simp [accepts, Builtin.route]

/-- What the rule adds is enabled and accepted by no route present. -/
theorem added_free (hb : b ∈ added present bs) :
    b ∈ bs ∧ b.enabled = true ∧ ∀ route ∈ present, accepts b.path b.method route = false := by
  induction bs generalizing present with
  | nil => simp [added] at hb
  | cons c bs ih =>
    unfold added at hb
    split at hb
    · rename_i hfree
      simp only [Bool.and_eq_true, Bool.not_eq_true', List.any_eq_false, Bool.not_eq_true] at hfree
      rcases List.mem_cons.mp hb with rfl | hb
      · exact ⟨by simp, hfree⟩
      · obtain ⟨hmem, henabled, hnone⟩ := ih hb
        exact ⟨by simp [hmem], henabled, fun r hr => hnone r (by simp [hr])⟩
    · obtain ⟨hmem, hrest⟩ := ih hb
      exact ⟨by simp [hmem], hrest⟩

/-- **At most one built-in is added for a method and a path.** -/
theorem added_once (present : List Route) (bs : List Builtin) :
    (added present bs).Pairwise fun a b => (a.path, a.method) ≠ (b.path, b.method) := by
  induction bs generalizing present with
  | nil => exact .nil
  | cons c bs ih =>
    unfold added
    split
    · refine .cons ?_ (ih _)
      intro b hb heq
      have hfree := (added_free hb).2.2 c.route (by simp)
      obtain ⟨hpath, hmethod⟩ := Prod.mk.inj heq
      simp [accepts_route.mpr ⟨hpath, hmethod.symm⟩] at hfree
    · exact ih present

/-! ## When the code follows the rule -/

/-- A class-based endpoint at this path. -/
def bare (path : String) (route : Route) : Prop :=
  route.path = some path ∧ route.methods = .none

/-- A route whose method set has the method. -/
def listed (path method : String) (route : Route) : Prop :=
  ∃ methods, route.path = some path ∧ route.methods = .set methods ∧ method ∈ methods

/-- Every class-based endpoint at this path comes after a route that lists the method. -/
def Readable (path method : String) (routes : List Route) : Prop :=
  ∀ before route after, routes = before ++ route :: after → bare path route →
    ∃ r ∈ before, listed path method r

/-- A built-in can be registered: the search for an owner reads the table, and its path compiles
unless a route accepts it. -/
def Clear (compile_path : String → Result Unit) (routes : List Route) (b : Builtin) : Prop :=
  b.enabled = true → Readable b.path b.method routes ∧
    (compile_path b.path = .ok () ∨ ∃ route ∈ routes, accepts b.path b.method route = true)

theorem readable_cons : Readable path method (route :: routes) ↔
    listed path method route ∨ (¬ bare path route ∧ Readable path method routes) := by
  constructor
  · intro h
    by_cases hlisted : listed path method route
    · exact .inl hlisted
    · refine .inr ⟨fun hbare => ?_, fun before r after heq hbare => ?_⟩
      · obtain ⟨r, hr, -⟩ := h [] route routes rfl hbare
        cases hr
      · obtain ⟨o, ho, hl⟩ := h (route :: before) r after (by simp [heq]) hbare
        rcases List.mem_cons.mp ho with rfl | ho
        · exact absurd hl hlisted
        · exact ⟨o, ho, hl⟩
  · rintro h before r after heq hbare
    cases before with
    | nil =>
      obtain ⟨rfl, rfl⟩ := List.cons.inj heq
      rcases h with ⟨methods, -, hset, -⟩ | ⟨hnot, -⟩
      · simp [hbare.2] at hset
      · exact absurd hbare hnot
    | cons o before =>
      obtain ⟨rfl, rfl⟩ := List.cons.inj heq
      rcases h with hlisted | ⟨-, hrest⟩
      · exact ⟨_, by simp, hlisted⟩
      · obtain ⟨p, hp, hl⟩ := hrest before r after rfl hbare
        exact ⟨p, by simp [hp], hl⟩

theorem readable_nil : Readable path method [] := by
  intro before route after h
  simp at h

/-- A built-in at the end of the table hides nothing from a search. -/
theorem readable_snoc : Readable path method (routes ++ [b.route]) ↔
    Readable path method routes := by
  have hset : ¬ bare path b.route := fun h => by cases h.2
  induction routes with
  | nil => simp [readable_cons, hset, readable_nil]
  | cons r routes ih => simp only [List.cons_append, readable_cons, ih]

/-- What one test says: the route lists the method, raises, or is passed over. -/
theorem owns_cases (path method : String) (route : Route) :
    (listed path method route ∧ owns path method route = .ok true ∧
        accepts path method route = true) ∨
      (bare path route ∧ ¬ listed path method route ∧ ∃ e, owns path method route = .error e) ∨
      (¬ bare path route ∧ ¬ listed path method route ∧ owns path method route = .ok false ∧
        accepts path method route = false) := by
  by_cases hpath : route.path = some path
  · cases hmethods : route.methods with
    | absent => exact .inr (.inr (by simp [bare, listed, owns, accepts, hpath, hmethods]))
    | none => exact .inr (.inl (by simp [bare, listed, owns, hpath, hmethods]))
    | set methods =>
      by_cases hm : method ∈ methods
      · exact .inl (by simp [listed, owns, accepts, hpath, hmethods, hm])
      · exact .inr (.inr (by simp [bare, listed, owns, accepts, hpath, hmethods, hm]))
  · exact .inr (.inr (by simp [bare, listed, owns, accepts, hpath]))

/-- **The search for an owner decides the rule, unless it reaches a class-based endpoint.** -/
theorem anyOwns_ok {found : Bool} : anyOwns path method routes = .ok found ↔
    Readable path method routes ∧ found = routes.any (accepts path method) := by
  induction routes with
  | nil => simp [anyOwns, readable_nil, eq_comm]
  | cons r routes ih =>
    rw [readable_cons, anyOwns, List.any_cons]
    rcases owns_cases path method r with ⟨hl, hown, hacc⟩ | ⟨hb, hnl, e, hown⟩ |
      ⟨hnb, hnl, hown, hacc⟩
    · simp only [hl, hown, hacc, Bool.true_or, true_or, true_and]
      exact ⟨fun h => by cases h; rfl, fun h => by rw [h]; rfl⟩
    · simp only [hb, hnl, not_true, false_and, or_false, hown, iff_false]
      exact nofun
    · simp only [hnb, hnl, hown, hacc, Bool.false_or, false_or, not_false_eq_true, true_and, ← ih]
      rfl

/-- A built-in that follows the rule at the end of the table. -/
theorem added_single (present : List Route) (b : Builtin) : added present [b] =
    if b.enabled && !present.any (accepts b.path b.method) then [b] else [] := by
  simp [added]

/-- One pass of the loops follows the rule, exactly when the built-in is clear. -/
theorem register_ok {table : List Route} : register compile_path present b = .ok table ↔
    Clear compile_path present b ∧ table = present ++ (added present [b]).map Builtin.route := by
  rw [added_single]
  cases henabled : b.enabled with
  | false =>
    have hskip : register compile_path present b = .ok present := by
      simp [register, henabled]
      rfl
    rw [hskip, Except.ok.injEq]
    simp [Clear, henabled, eq_comm (b := table)]
  | true =>
    simp only [register, Clear, henabled, Bool.not_true, Bool.false_eq_true, if_false,
      forall_const]
    constructor
    · intro h
      obtain ⟨found, hfound, h⟩ := bind_ok h
      obtain ⟨hreadable, rfl⟩ := anyOwns_ok.mp hfound
      cases hany : present.any (accepts b.path b.method) with
      | true =>
        rw [hany] at h
        cases h
        exact ⟨⟨hreadable, .inr (List.any_eq_true.mp hany)⟩, by simp⟩
      | false =>
        rw [hany] at h
        obtain ⟨⟨⟩, hcompile, h⟩ := bind_ok h
        cases h
        exact ⟨⟨hreadable, .inl hcompile⟩, by simp⟩
    · rintro ⟨⟨hreadable, hclear⟩, rfl⟩
      rw [anyOwns_ok.mpr ⟨hreadable, rfl⟩]
      cases hany : present.any (accepts b.path b.method) with
      | true => simp [bind, Except.bind, pure, Except.pure]
      | false =>
        have hcompile := hclear.resolve_right fun h => by simp [List.any_eq_true.mpr h] at hany
        simp [bind, Except.bind, pure, Except.pure, add_api_route, hcompile]

/-- What is clear stays clear behind a built-in, and nothing else becomes clear there: a built-in
that was added has a path that compiles. -/
theorem clear_snoc {c : Builtin} (hc : compile_path c.path = .ok ()) :
    Clear compile_path (present ++ [c.route]) b ↔ Clear compile_path present b := by
  unfold Clear
  refine imp_congr_right fun _ => ?_
  rw [readable_snoc]
  refine and_congr_right fun _ => ?_
  constructor
  · rintro (hcompile | ⟨route, hroute, haccepts⟩)
    · exact .inl hcompile
    · rcases List.mem_append.mp hroute with hroute | hroute
      · exact .inr ⟨route, hroute, haccepts⟩
      · obtain rfl := List.mem_singleton.mp hroute
        exact .inl ((accepts_route.mp haccepts).1 ▸ hc)
  · exact Or.imp_right fun ⟨route, hroute, haccepts⟩ => ⟨route, by simp [hroute], haccepts⟩

/-- An added built-in was clear, and its path compiled. -/
theorem compiles_of_added (h : Clear compile_path present b)
    (hadd : (b.enabled && !present.any (accepts b.path b.method)) = true) :
    compile_path b.path = .ok () := by
  simp only [Bool.and_eq_true, Bool.not_eq_true'] at hadd
  refine (h hadd.1).2.resolve_right fun haccepted => ?_
  simp [List.any_eq_true.mpr haccepted] at hadd

/-- **The loops follow the rule, exactly when every built-in is clear of the table they find.** -/
theorem foldlM_register_ok {table : List Route} :
    bs.foldlM (register compile_path) present = .ok table ↔
      (∀ b ∈ bs, Clear compile_path present b) ∧
        table = present ++ (added present bs).map Builtin.route := by
  induction bs generalizing present with
  | nil => simp [pure, Except.pure, added, eq_comm (b := table)]
  | cons b bs ih =>
    have hpass : (b :: bs).foldlM (register compile_path) present = .ok table ↔
        Clear compile_path present b ∧
          bs.foldlM (register compile_path) (present ++ (added present [b]).map Builtin.route)
            = .ok table := by
      rw [List.foldlM_cons]
      constructor
      · intro h
        obtain ⟨mid, hmid, h⟩ := bind_ok h
        obtain ⟨hclear, rfl⟩ := register_ok.mp hmid
        exact ⟨hclear, h⟩
      · rintro ⟨hclear, h⟩
        rw [register_ok.mpr ⟨hclear, rfl⟩]
        exact h
    rw [hpass, List.forall_mem_cons, and_assoc]
    refine and_congr_right fun hclear => ?_
    rw [ih, added_single, added]
    split
    · rename_i hadd
      simp only [List.map_cons, List.map_nil, clear_snoc (compiles_of_added hclear hadd),
        List.append_assoc, List.singleton_append]
    · simp only [List.map_nil, List.append_nil]

/-- The two calls are one loop over all built-ins, then the mount. -/
theorem register_all_ok {settings : Settings} {table : List Route} :
    register_all compile_path settings routes = .ok table ↔
      ∃ mid, (builtins settings).foldlM (register compile_path) routes = .ok mid ∧
        table = mid ++ if settings.docs_enabled then [swagger_mount] else [] := by
  have hsplit : (builtins settings).foldlM (register compile_path) routes =
      register_internal_routes compile_path settings routes >>= fun mid =>
        (documentation settings).foldlM (register compile_path) mid := List.foldlM_append
  rw [hsplit]
  unfold register_all register_documentation
  cases register_internal_routes compile_path settings routes with
  | error e => exact ⟨nofun, fun ⟨_, h, _⟩ => by cases h⟩
  | ok internal =>
    cases hdocs : settings.docs_enabled with
    | false =>
      have hnone : (documentation settings).foldlM (register compile_path) internal
          = .ok internal := by
        simp [documentation, register, hdocs, bind, Except.bind, pure, Except.pure]
      simp [bind, Except.bind, pure, Except.pure, hnone, eq_comm (b := table)]
    | true =>
      cases hfold : (documentation settings).foldlM (register compile_path) internal <;>
        simp [bind, Except.bind, pure, Except.pure, hfold, eq_comm (b := table)]

/-- **The built-ins yield to the business routes exactly on the tables whose searches raise
nothing and whose remaining paths compile.** -/
theorem builtins_yield (compile_path : String → Result Unit) (settings : Settings)
    (routes : List Route) :
    (∃ table, register_all compile_path settings routes = .ok table ∧
        Yields settings routes table) ↔
      ∀ b ∈ builtins settings, Clear compile_path routes b := by
  constructor
  · rintro ⟨table, h, -⟩
    obtain ⟨mid, hmid, -⟩ := register_all_ok.mp h
    exact (foldlM_register_ok.mp hmid).1
  · intro hclear
    have hmid := foldlM_register_ok.mpr ⟨hclear, rfl⟩
    refine ⟨_, register_all_ok.mpr ⟨_, hmid, rfl⟩, rfl, added_once routes _, ?_⟩
    exact fun b hb => added_free hb

/-! ### A class-based endpoint at the health path -/

/-- What `app.add_route("/health", HealthEndpoint)` adds for an `HTTPEndpoint`. -/
def healthEndpoint : Route where
  path := some "/health"
  methods := .none
  endpoint := .business "HealthEndpoint"
  include_in_schema := some true
  status_code := none

/-- **The accepted defaults do not start beside a class-based health endpoint.** -/
theorem yield_raises :
    settings_from_frame (Config.frame Config.defaults) (fun s => .error s) (fun s => "/srv/" ++ s)
        = .ok Config.defaultSettings ∧
      ¬ ∃ table, register_all (fun _ => .ok ()) Config.defaultSettings [healthEndpoint]
          = .ok table ∧ Yields Config.defaultSettings [healthEndpoint] table := by
  refine ⟨Config.settings_from_defaults, ?_⟩
  rintro ⟨table, h, -⟩
  have hraises : register_all (fun _ => .ok ()) Config.defaultSettings [healthEndpoint]
      = .error "argument of type 'NoneType' is not a container or iterable" := by decide
  rw [hraises] at h
  cases h

end LclFastapi.Routes
