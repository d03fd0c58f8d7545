import LclFastapi.Lib.Dict
import LclFastapi.Render.Validation

/-!
# Validated settings (`config.py`)

`settings_from_frame` over a Frame that has been resolved: `get` is `frame.get`, which may raise.

* A `ValueError` is its message, and so is any other exception.
* `urlsplit` is the parser of `urllib.parse`, `resolve` joins a path to the directory of the
  configuration and resolves it.

`settings_from_frame_ok` collects what every accepted settings record has.
-/

namespace LclFastapi.Config

open LclFastapi.Render (Result require bind_ok require_ok)

/-- A value of a configuration Frame. -/
inductive Value where
  | none
  | bool (b : Bool)
  | int (n : Int)
  | float (x : ℚ)
  /-- An infinity, or NaN. -/
  | nonfinite
  | str (s : String)
  | list (items : List Value)
  | tuple (items : List Value)
  | other

/-- The validated settings of the service. -/
structure Settings where
  app_name : String
  app_version : String
  app_target : String
  host : String
  port : Int
  workers : Int
  origin : String
  state_dir : String
  pid_file : String
  worker_state_dir : String
  backlog : Int
  keep_alive_seconds : Int
  graceful_timeout_seconds : Int
  health_enabled : Bool
  health_path : String
  sample_interval_seconds : ℚ
  disk_paths : List String
  docs_enabled : Bool
  docs_path : String
  openapi_path : String
  id_header : String
  worker_id_base : Int
  worker_id_count : Int
  reload_dirs : List String
  verbose : Bool
  file_verbose : Bool
  deriving DecidableEq

/-! ## Values -/

/-- `text_value(value, name)`. -/
def text_value (value : Value) (name : String) : Result String :=
  let message := name ++ ": expected nonempty text without controls"
  match value with
  | .str s => if s.toList = [] ∨ s.toList.any (fun c => c.toNat < 32) then .error message else .ok s
  | _ => .error message

/-- `integer_value(value, name, minimum, maximum)`. -/
def integer_value (value : Value) (name : String) (minimum maximum : Int) : Result Int :=
  let message := s!"{name}: expected an integer from {minimum} to {maximum}"
  match value with
  | .int n => if minimum ≤ n ∧ n ≤ maximum then .ok n else .error message
  | _ => .error message

/-- What `urlsplit` returns. -/
structure SplitResult where
  scheme : String
  netloc : String
  path : String
  query : String
  fragment : String
  hostname : Option String
  username : Option String
  password : Option String
  /-- Reading it may raise. -/
  port : Result (Option Int)

/-- The parts an origin may not have. -/
def SplitResult.rejected (parsed : SplitResult) (origin : String) : Bool :=
  !(parsed.scheme == "http" || parsed.scheme == "https") ||
    (parsed.hostname.getD "").isEmpty || parsed.username.isSome || parsed.password.isSome ||
    !parsed.path.isEmpty || !parsed.query.isEmpty || !parsed.fragment.isEmpty ||
    origin.toList.any Render.isspace || origin.toList.contains '\\' || origin.toList.contains '?' ||
    origin.toList.contains '#' || parsed.netloc.toList.getLast? == some ':'

/-- `origin_value(value)`. -/
def origin_value (urlsplit : String → Result SplitResult) (value : Value) : Result String :=
  match value with
  | .str "" => .ok ""
  | _ => do
    let origin ← text_value value "server.root_path"
    let parsed ← urlsplit origin
    require (!parsed.rejected origin) "server.root_path: expected an HTTP(S) origin without a path"
    let port ← parsed.port
    require (port.all fun n => 1 ≤ n ∧ n ≤ 65535) "server.root_path: invalid port"
    return origin

/-! ## The resolvers of `settings_from_frame` -/

section Resolvers

variable (get : String → Result Value)

/-- A text. -/
def text (name : String) : Result String := do
  text_value (← get name) name

/-- An integer between bounds. -/
def number (name : String) (minimum maximum : Int) : Result Int := do
  integer_value (← get name) name minimum maximum

/-- A Boolean. -/
def flag (name : String) : Result Bool := do
  match ← get name with
  | .bool b => .ok b
  | _ => .error (name ++ ": expected a Boolean")

/-- `value.startswith("/")`, not `"//"`, without a query or a fragment. -/
def isRoute (value : List Char) : Bool :=
  value.head? == some '/' && !(['/', '/'].isPrefixOf value) &&
    !value.any fun c => c == '?' || c == '#'

/-- A text that is a route. -/
def path (name : String) : Result String := do
  let value ← text get name
  require (isRoute value.toList) (name ++ ": expected an absolute route path")
  return value

/-- A text, resolved in the directory of the configuration. -/
def filesystem_path (resolve : String → String) (name : String) : Result String := do
  return resolve (← text get name)

/-- `health.sample_interval_seconds`. `math.isfinite` raises on an integer that no float is near;
any other is kept exact, where the source stores the float next to it. -/
def sample_interval : Value → Result ℚ
  | .int n =>
    if 2 ^ 1024 - 2 ^ 970 ≤ n.natAbs then .error "int too large to convert to float"
    else if 0 < n then .ok n else .error message
  | .float x => if 0 < x then .ok x else .error message
  | _ => .error message
where message := "health.sample_interval_seconds: expected a positive number"

/-- `health.disk_paths`. -/
def disk_paths (resolve : String → String) (disks : Value) : Result (List String) :=
  match disks with
  | .list items | .tuple items =>
    items.mapM fun item => resolve <$> text_value item "health.disk_paths"
  | _ => .error "health.disk_paths: expected a list of paths"

/-- `server.reload_dirs`. -/
def reload_dirs (resolve : String → String) (directories : Value) : Result (List String) :=
  match directories with
  | .list (item :: items) =>
    (item :: items).mapM fun item => resolve <$> text_value item "server.reload_dirs"
  | _ => .error "server.reload_dirs: expected a nonempty list of directory paths"

/-- A character of an HTTP header name. -/
def isToken (c : Char) : Bool :=
  c.isAlphanum || "!#$%&'*+-.^_`|~".toList.contains c

/-- The settings of a configuration Frame, checked in the order of the source. -/
def settings_from_frame (urlsplit : String → Result SplitResult) (resolve : String → String) :
    Result Settings := do
  let host ← text get "server.host"
  require (host == "127.0.0.1" || host == "0.0.0.0")
    "server.host: expected 127.0.0.1 or 0.0.0.0"
  let workers ← number get "server.workers" 1 1024
  let worker_base ← number get "snowflake.worker_id_base" 0 1023
  let worker_count ← number get "snowflake.worker_id_count" workers (1024 - worker_base)
  let interval ← sample_interval (← get "health.sample_interval_seconds")
  let disks ← disk_paths resolve (← get "health.disk_paths")
  let header ← text get "request.id_header"
  let directories ← reload_dirs resolve (← get "server.reload_dirs")
  require (header.toList.all isToken) "request.id_header: expected an ASCII HTTP header name"
  return {
    app_name := ← text get "app.name"
    app_version := ← text get "app.version"
    app_target := ← text get "app.target"
    host
    port := ← number get "server.port" 1 65535
    workers
    origin := ← origin_value urlsplit (← get "server.root_path")
    state_dir := ← filesystem_path get resolve "runtime.state_dir"
    pid_file := ← filesystem_path get resolve "runtime.pid_file"
    worker_state_dir := ← filesystem_path get resolve "runtime.worker_state_dir"
    backlog := ← number get "server.backlog" 1 65535
    keep_alive_seconds := ← number get "server.keep_alive_seconds" 0 86400
    graceful_timeout_seconds := ← number get "server.graceful_timeout_seconds" 1 86400
    health_enabled := ← flag get "health.enabled"
    health_path := ← path get "health.path"
    sample_interval_seconds := interval
    disk_paths := disks
    docs_enabled := ← flag get "docs.enabled"
    docs_path := ← path get "docs.path"
    openapi_path := ← path get "docs.openapi_path"
    id_header := header
    worker_id_base := worker_base
    worker_id_count := worker_count
    reload_dirs := Lib.Dict.distinct directories
    verbose := ← flag get "__verbose__"
    file_verbose := ← flag get "logging.file_verbose" }

end Resolvers

/-! ## What is accepted -/

variable {get : String → Result Value} {urlsplit : String → Result SplitResult}
variable {resolve : String → String} {settings : Settings}

theorem number_ok {name : String} {minimum maximum n : Int}
    (h : number get name minimum maximum = .ok n) : minimum ≤ n ∧ n ≤ maximum := by
  obtain ⟨value, -, h⟩ := bind_ok h
  unfold integer_value at h
  cases value with
  | int m =>
    simp only at h
    split at h
    · cases h
      assumption
    · cases h
  | _ => cases h

theorem path_ok {name s : String} (h : path get name = .ok s) : isRoute s.toList = true := by
  obtain ⟨value, -, h⟩ := bind_ok h
  obtain ⟨u, hu, h⟩ := bind_ok h
  cases h
  exact require_ok hu

/-- The ranges and the routes of a settings record. -/
structure Accepted (settings : Settings) : Prop where
  workers : 1 ≤ settings.workers ∧ settings.workers ≤ 1024
  worker_id_base : 0 ≤ settings.worker_id_base ∧ settings.worker_id_base ≤ 1023
  worker_id_count : settings.workers ≤ settings.worker_id_count ∧
    settings.worker_id_count ≤ 1024 - settings.worker_id_base
  health_path : isRoute settings.health_path.toList = true
  docs_path : isRoute settings.docs_path.toList = true
  openapi_path : isRoute settings.openapi_path.toList = true

/-- **Every accepted settings record is within its bounds.** -/
theorem settings_from_frame_ok (h : settings_from_frame get urlsplit resolve = .ok settings) :
    Accepted settings := by
  obtain ⟨host, -, h⟩ := bind_ok h
  obtain ⟨-, -, h⟩ := bind_ok h
  obtain ⟨workers, hworkers, h⟩ := bind_ok h
  obtain ⟨base, hbase, h⟩ := bind_ok h
  obtain ⟨count, hcount, h⟩ := bind_ok h
  -- the interval, the two lists of paths and the header
  iterate 8 obtain ⟨_, -, h⟩ := bind_ok h
  -- from `app.name` to `health.enabled`
  iterate 13 obtain ⟨_, -, h⟩ := bind_ok h
  obtain ⟨health, hhealth, h⟩ := bind_ok h
  obtain ⟨_, -, h⟩ := bind_ok h
  obtain ⟨docs, hdocs, h⟩ := bind_ok h
  obtain ⟨openapi, hopenapi, h⟩ := bind_ok h
  iterate 2 obtain ⟨_, -, h⟩ := bind_ok h
  cases h
  exact ⟨number_ok hworkers, number_ok hbase, number_ok hcount, path_ok hhealth, path_ok hdocs,
    path_ok hopenapi⟩

/-! ### The packaged defaults, with an application -/

/-- `static/defaults.lclcfg` as resolved for an application `shop` with two workers. -/
def defaults : List (String × Value) :=
  [("app.name", .str "shop"), ("app.version", .str "1.0"), ("app.target", .str "shop.main:app"),
    ("server.host", .str "127.0.0.1"), ("server.port", .int 8080), ("server.workers", .int 2),
    ("server.reload_dirs", .list [.str "."]), ("server.root_path", .str ""),
    ("server.backlog", .int 2048), ("server.keep_alive_seconds", .int 5),
    ("server.graceful_timeout_seconds", .int 30), ("runtime.state_dir", .str "run"),
    ("runtime.pid_file", .str "run/shop.pid"), ("runtime.worker_state_dir", .str "run/workers"),
    ("health.enabled", .bool true), ("health.path", .str "/health"),
    ("health.sample_interval_seconds", .int 1), ("health.disk_paths", .list [.str "."]),
    ("docs.enabled", .bool true), ("docs.path", .str "/docs"),
    ("docs.openapi_path", .str "/openapi.json"), ("request.id_header", .str "X-Request-ID"),
    ("snowflake.worker_id_base", .int 0), ("snowflake.worker_id_count", .int 64),
    ("__verbose__", .bool false), ("logging.file_verbose", .bool false)]

/-- `frame.get` over resolved values. -/
def frame (values : List (String × Value)) (name : String) : Result Value :=
  (values.lookup name).elim (.error name) .ok

/-- What the defaults are accepted as. -/
def defaultSettings : Settings where
  app_name := "shop"
  app_version := "1.0"
  app_target := "shop.main:app"
  host := "127.0.0.1"
  port := 8080
  workers := 2
  origin := ""
  state_dir := "/srv/run"
  pid_file := "/srv/run/shop.pid"
  worker_state_dir := "/srv/run/workers"
  backlog := 2048
  keep_alive_seconds := 5
  graceful_timeout_seconds := 30
  health_enabled := true
  health_path := "/health"
  sample_interval_seconds := 1
  disk_paths := ["/srv/."]
  docs_enabled := true
  docs_path := "/docs"
  openapi_path := "/openapi.json"
  id_header := "X-Request-ID"
  worker_id_base := 0
  worker_id_count := 64
  reload_dirs := ["/srv/."]
  verbose := false
  file_verbose := false

theorem settings_from_defaults :
    settings_from_frame (frame defaults) (fun s => .error s) (fun s => "/srv/" ++ s)
      = .ok defaultSettings := by
  decide +kernel

end LclFastapi.Config
