import LclFastapi.Render.Nginx
import LclFastapi.Render.Systemd
import LclFastapi.Routes

/-!
# The deployed service (`render/config.py`)

`render_config` from a configuration Frame to a deployment text, and what the rendered server block
does with a request, against the service that the same Frame describes.

* `Frame` gives for each name the resolved value, an exception, or nothing; a fallback stands in for
  nothing only.
* `readServer` reads the statements of a server block from the tokens of `Nginx.lean`. By the
  documented rules of Nginx, which are assumptions here, a request goes to the location of
  `location`: an exact one first, else the one with the longest prefix; in a location, `return`
  comes before `proxy_pass`. The path of a request is the decoded one.
* `register_all` of `Routes.lean` is the route table of the service; a route matches the path that
  is equal to its own.

**`deployment_guarded`**: what is proxied goes to the port of the service, and everything is proxied
but the paths of the built-in control routes, whatever else the Frame holds.
-/

namespace LclFastapi.Render.Deployment

open Lib (Token)
open Config (settings_from_frame)
open Routes (Route Builtin Endpoint register_all added internal builtins)

/-! ## From the Frame to the settings -/

/-- What a name stands for, if anything. -/
abbrev Frame := String → Option (Result Config.Value)

/-- `frame.get(name)`. -/
def Frame.get (frame : Frame) (name : String) : Result Config.Value :=
  (frame name).getD (.error name)

/-- `frame.get(name, fallback=fallback)`. -/
def Frame.getFallback (frame : Frame) (name : String) (fallback : Config.Value) :
    Result Config.Value :=
  (frame name).getD (.ok fallback)

/-- A value as the validators see it. -/
def materialized : Config.Value → Runtime.Value
  | .none => .null
  | .bool b => .bool b
  | .int n => .int n
  | .float x => .float x
  | .nonfinite => .compound "float"
  | .str s => .str s
  | .list _ => .compound "list"
  | .tuple _ => .compound "tuple"
  | .other => .compound "object"

/-- `frame_text`; a required field has the fallback `None`. -/
def frame_text (frame : Frame) (name : String) (fallback : Config.Value) : Result String := do
  text_value (materialized (← frame.getFallback name fallback)) name

/-- An integer with a fallback, between bounds. -/
def frame_integer (frame : Frame) (name : String) (fallback minimum maximum : Int) :
    Result Int := do
  integer_value (materialized (← frame.getFallback name (.int fallback))) name minimum maximum

/-- `host in {"127.0.0.1", "0.0.0.0"}`. -/
def loopback : Config.Value → Result Bool
  | .str s => .ok (s == "127.0.0.1" || s == "0.0.0.0")
  | .list _ => .error "unhashable type: 'list'"
  | _ => .ok false

/-- `nginx_settings(frame)`. -/
def nginx_settings (frame : Frame) : Result NginxSettings := do
  let host ← frame.getFallback "server.host" (.str "127.0.0.1")
  require (← loopback host) "server.host must be 127.0.0.1 or 0.0.0.0 for loopback proxying"
  let server_name ← frame_text frame "nginx.server_name" .none
  let listen_port ← frame_integer frame "nginx.listen_port" 443 1 65535
  let service_port ← frame_integer frame "server.port" 8080 1 65535
  let certificate ← frame_text frame "nginx.ssl_certificate" .none
  let certificate_key ← frame_text frame "nginx.ssl_certificate_key" .none
  return { server_name, listen_port, service_port, certificate, certificate_key }

/-- `systemd_settings(frame)`. -/
def systemd_settings (frame : Frame) : Result SystemdSettings := do
  let service_name ← frame_text frame "systemd.service_name" .none
  let description ← frame_text frame "systemd.description" .none
  let user ← frame_text frame "systemd.user" .none
  let group ← frame_text frame "systemd.group" .none
  let working_directory ← frame_text frame "systemd.working_directory" .none
  let config_path ← frame_text frame "systemd.config_path" .none
  let restart ← frame_text frame "systemd.restart" (.str "on-failure")
  let restart_seconds ← frame_integer frame "systemd.restart_seconds" 5 0 86400
  return {
    service_name, description, user, group, working_directory, config_path, restart
    restart_seconds }

/-- The deployment text that is asked for. -/
inductive Kind where
  | nginx
  | systemd

/-- `render_config`, from the Frame on. -/
def render_config (frame : Frame) : Kind → Result String
  | .nginx => do render_nginx (← nginx_settings frame)
  | .systemd => do render_systemd (← systemd_settings frame)

/-! ## What a server block does -/

/-- A simple directive, or a block with its head. -/
inductive Statement where
  | directive (words : List (List Char))
  | block (head : List (List Char)) (body : List Statement)

/-- The statements up to the end of a block, or of the text at depth 0. -/
def statements : Nat → Nat → List (List Char) → List (Token Char) →
    Option (List Statement × List (Token Char))
  | 0, _, _, _ => none
  | _ + 1, depth, words, [] => if depth = 0 ∧ words = [] then some ([], []) else none
  | fuel + 1, depth, words, .word w :: ts => statements fuel depth (words ++ [w]) ts
  | fuel + 1, depth, words, .mark c :: ts =>
    if c = ';' then do
      let (rest, ts) ← statements fuel depth [] ts
      return (.directive words :: rest, ts)
    else if c = '\x7b' then do
      let (body, ts) ← statements fuel (depth + 1) [] ts
      let (rest, ts) ← statements fuel depth [] ts
      return (.block words body :: rest, ts)
    else if 0 < depth ∧ words = [] then some ([], ts)
    else none

/-- What a location does with a request. -/
inductive Action where
  | respond (code : List Char)
  | proxy (upstream : List Char)
  deriving DecidableEq

/-- What a statement of a location says of a request. -/
def Statement.action : Statement → Option Action
  | .directive [name, argument] =>
    if name = "return".toList then some (.respond argument)
    else if name = "proxy_pass".toList then some (.proxy argument)
    else none
  | _ => none

/-- The request is answered without the service. -/
def Action.responds : Action → Bool
  | .respond _ => true
  | .proxy _ => false

/-- `return` comes before `proxy_pass`. -/
def actionOf (body : List Statement) : Option Action :=
  let actions := body.filterMap Statement.action
  (actions.find? Action.responds).or actions.head?

/-- A location of the server; its path is exact or a prefix. -/
structure Location where
  exact : Bool
  path : List Char
  action : Option Action

/-- The location that a statement declares. -/
def Statement.location : Statement → Option Location
  | .block [name, path] body =>
    if name = "location".toList then some ⟨false, path, actionOf body⟩ else none
  | .block [name, modifier, path] body =>
    if name = "location".toList ∧ modifier = "=".toList then some ⟨true, path, actionOf body⟩
    else none
  | _ => none

/-- The locations of the one server block of a text. -/
def readServer (text : String) : Option (List Location) := do
  let ts ← nginx.lex text.toList
  match ← statements (ts.length + 1) 0 [] ts with
  | ([.block [name] body], []) =>
    if name = "server".toList then some (body.filterMap Statement.location) else none
  | _ => none

/-- The one of two prefix locations that Nginx takes. -/
def longer (best : Option Location) (l : Location) : Option Location :=
  match best with
  | some b => if b.path.length < l.path.length then some l else some b
  | none => some l

/-- The location of a request. -/
def location (server : List Location) (path : List Char) : Option Location :=
  (server.find? fun l => l.exact && l.path == path).or
    ((server.filter fun l => !l.exact && l.path.isPrefixOf path).foldl longer none)

/-- What the server does with a request. -/
def handle (server : List Location) (path : List Char) : Option Action :=
  (location server path).bind Location.action

/-- The locations of the template. -/
def rendered (port : Int) : List Location :=
  [⟨true, "/_lcl/shutdown".toList, some (.respond "404".toList)⟩,
    ⟨true, "/_lcl/logging/verbose".toList, some (.respond "404".toList)⟩,
    ⟨false, "/".toList, some (.proxy ("http://127.0.0.1:" ++ toString port).toList)⟩]

/-- The statements of the template. -/
theorem statements_nginxTokens (listen name c k port : String) :
    ∃ body, statements ((nginxTokens listen name c k port).length + 1) 0 []
        (nginxTokens listen name c k port) = some ([.block ["server".toList] body], []) ∧
      body.filterMap Statement.location =
        [⟨true, "/_lcl/shutdown".toList, some (.respond "404".toList)⟩,
          ⟨true, "/_lcl/logging/verbose".toList, some (.respond "404".toList)⟩,
          ⟨false, "/".toList, some (.proxy ("http://127.0.0.1:" ++ port).toList)⟩] := by
  exact ⟨_, rfl, rfl⟩

variable {settings : NginxSettings} {text : String}

/-- **The rendered text is a server block with three locations.** -/
theorem readServer_rendered (h : render_nginx settings = .ok text) :
    readServer text = some (rendered settings.service_port) := by
  unfold render_nginx at h
  obtain ⟨name, hname, h⟩ := bind_ok h
  obtain ⟨_, hserver, h⟩ := bind_ok h
  obtain ⟨listen, hlisten, h⟩ := bind_ok h
  obtain ⟨port, hport, h⟩ := bind_ok h
  obtain ⟨certificate, -, h⟩ := bind_ok h
  obtain ⟨quotedCertificate, hcertificate, h⟩ := bind_ok h
  obtain ⟨key, -, h⟩ := bind_ok h
  obtain ⟨quotedKey, hkey, h⟩ := bind_ok h
  obtain ⟨hport, hportMin, -⟩ := integer_value_ok hport
  have hlistenMin := (integer_value_ok hlisten).2.1
  have hlex : nginx.lex text.toList = some (nginxTokens (toString listen) name certificate key
      (toString port)) := by
    rw [← Except.ok.inj h]
    exact nginxLines_ok (by omega) (by omega) (lex_serverName (require_ok hserver))
      (lex_nginx_quote hcertificate) (lex_nginx_quote hkey)
  obtain ⟨body, hbody, hlocations⟩ := statements_nginxTokens (toString listen) name certificate key
    (toString port)
  cases hport
  unfold readServer
  rw [hlex]
  simp only [Option.bind_eq_bind, Option.bind_some, hbody, if_pos, hlocations]
  rfl

/-- The path of the shutdown request. -/
def shutdownPath : List Char := "/_lcl/shutdown".toList

/-- The path of the file diagnostics. -/
def verbosePath : List Char := "/_lcl/logging/verbose".toList

theorem handle_shutdown (port : Int) :
    handle (rendered port) shutdownPath = some (.respond "404".toList) := rfl

theorem handle_verbose (port : Int) :
    handle (rendered port) verbosePath = some (.respond "404".toList) := rfl

/-- Behind exact locations for other paths, a last location is asked by its prefix. -/
theorem location_last {exacts : List Location} {l : Location} {path : List Char}
    (hexact : ∀ e ∈ exacts, e.exact = true ∧ e.path ≠ path) (hl : l.exact = false) :
    location (exacts ++ [l]) path = if l.path.isPrefixOf path = true then some l else none := by
  have hfind : (exacts ++ [l]).find? (fun l => l.exact && l.path == path) = none := by
    refine List.find?_eq_none.mpr fun e he => ?_
    rcases List.mem_append.mp he with he | he
    · rw [(hexact e he).1, beq_eq_false_iff_ne.mpr (hexact e he).2]
      exact Bool.false_ne_true
    · rw [List.mem_singleton.mp he, hl]
      exact Bool.false_ne_true
  have hfilter : exacts.filter (fun l => !l.exact && l.path.isPrefixOf path) = [] := by
    refine List.filter_eq_nil_iff.mpr fun e he => ?_
    rw [(hexact e he).1]
    exact Bool.false_ne_true
  unfold location
  rw [hfind, List.filter_append, hfilter, List.nil_append, List.filter_singleton, hl]
  cases l.path.isPrefixOf path <;> rfl

theorem isPrefixOf_slash (path : List Char) :
    "/".toList.isPrefixOf path = true ↔ path.head? = some '/' := by
  have hslash : "/".toList = ['/'] := rfl
  rw [hslash, List.isPrefixOf_iff_prefix]
  constructor
  · rintro ⟨rest, rfl⟩
    rfl
  · intro h
    obtain ⟨rest, rfl⟩ := List.head?_eq_some_iff.mp h
    exact ⟨rest, rfl⟩

/-- Every other path goes to the service. -/
theorem handle_other (port : Int) {path : List Char} (hshutdown : path ≠ shutdownPath)
    (hverbose : path ≠ verbosePath) :
    handle (rendered port) path =
      if path.head? = some '/' then some (.proxy ("http://127.0.0.1:" ++ toString port).toList)
      else none := by
  have hexact : ∀ e ∈ (rendered port).take 2, e.exact = true ∧ e.path ≠ path := by
    intro e he
    rcases List.mem_cons.mp he with rfl | he
    · exact ⟨rfl, hshutdown.symm⟩
    · rw [List.mem_singleton.mp he]
      exact ⟨rfl, hverbose.symm⟩
  have happend : rendered port = (rendered port).take 2 ++
      [⟨false, "/".toList, some (.proxy ("http://127.0.0.1:" ++ toString port).toList)⟩] := rfl
  unfold handle
  rw [happend, location_last hexact rfl]
  simp only [isPrefixOf_slash]
  split <;> rfl

/-! ## The service behind it -/

variable {frame : Frame} {urlsplit : String → Result Config.SplitResult}
variable {resolve : String → String} {service : Config.Settings}

theorem value_of_number {get : String → Result Config.Value} {name : String}
    {minimum maximum n : Int} (h : Config.number get name minimum maximum = .ok n) :
    get name = .ok (.int n) := by
  obtain ⟨value, hvalue, h⟩ := bind_ok h
  unfold Config.integer_value at h
  cases value with
  | int m =>
    simp only at h
    split at h
    · cases h
      exact hvalue
    · cases h
  | _ => cases h

/-- The service listens on the port of its Frame. -/
theorem port_of_settings (h : settings_from_frame frame.get urlsplit resolve = .ok service) :
    frame.get "server.port" = .ok (.int service.port) := by
  obtain ⟨host, -, h⟩ := bind_ok h
  obtain ⟨-, -, h⟩ := bind_ok h
  -- the workers, the interval, the two lists of paths and the header
  iterate 11 obtain ⟨_, -, h⟩ := bind_ok h
  -- the name, the version and the target of the application
  iterate 3 obtain ⟨_, -, h⟩ := bind_ok h
  obtain ⟨port, hport, h⟩ := bind_ok h
  iterate 15 obtain ⟨_, -, h⟩ := bind_ok h
  cases h
  exact value_of_number hport

theorem port_of_nginx (h : nginx_settings frame = .ok settings) :
    ∃ value, frame.getFallback "server.port" (.int 8080) = .ok value ∧
      materialized value = .int settings.service_port := by
  obtain ⟨host, -, h⟩ := bind_ok h
  obtain ⟨_, -, h⟩ := bind_ok h
  iterate 3 obtain ⟨_, -, h⟩ := bind_ok h
  obtain ⟨port, hport, h⟩ := bind_ok h
  iterate 2 obtain ⟨_, -, h⟩ := bind_ok h
  cases h
  obtain ⟨value, hvalue, hport⟩ := bind_ok hport
  exact ⟨value, hvalue, (integer_value_ok hport).1⟩

/-- The proxy and the service agree on the port. -/
theorem service_port_eq (hsettings : settings_from_frame frame.get urlsplit resolve = .ok service)
    (hnginx : nginx_settings frame = .ok settings) : settings.service_port = service.port := by
  have hport := port_of_settings hsettings
  obtain ⟨value, hvalue, hservice⟩ := port_of_nginx hnginx
  unfold Frame.get at hport
  unfold Frame.getFallback at hvalue
  cases hf : frame "server.port" with
  | none =>
    rw [hf] at hport
    cases hport
  | some resolved =>
    rw [hf] at hport hvalue
    have heq : resolved = .ok (.int service.port) := hport
    rw [heq] at hvalue
    cases hvalue
    exact (Runtime.Value.int.inj hservice).symm

/-- The endpoints behind the control token. -/
def control : Endpoint → Bool
  | .shutdown | .inspect_file_verbose | .update_file_verbose => true
  | _ => false

theorem control_path {b : Builtin} (hb : b ∈ builtins service)
    (hcontrol : control b.endpoint = true) :
    b.path.toList = shutdownPath ∨ b.path.toList = verbosePath := by
  simp only [builtins, internal, Routes.documentation, List.mem_append, List.mem_cons,
    List.not_mem_nil, or_false] at hb
  rcases hb with (rfl | rfl | rfl | rfl) | (rfl | rfl)
  · cases hcontrol
  · exact .inl rfl
  · exact .inr rfl
  · exact .inr rfl
  · cases hcontrol
  · cases hcontrol

/-- A built-in control route of the service has a path that the proxy answers itself. -/
theorem control_route {compile_path : String → Result Unit} {routes table : List Route}
    (htable : register_all compile_path service routes = .ok table) {route : Route}
    (hroute : route ∈ table) (hnew : route ∉ routes) (hcontrol : control route.endpoint = true) :
    ∃ path, route.path = some path ∧ (path.toList = shutdownPath ∨ path.toList = verbosePath) := by
  obtain ⟨mid, hmid, rfl⟩ := Routes.register_all_ok.mp htable
  obtain ⟨-, rfl⟩ := Routes.foldlM_register_ok.mp hmid
  rcases List.mem_append.mp hroute with hroute | hroute
  · rcases List.mem_append.mp hroute with hroute | hroute
    · exact absurd hroute hnew
    · obtain ⟨b, hb, rfl⟩ := List.mem_map.mp hroute
      exact ⟨b.path, rfl, control_path (Routes.added_free hb).1 hcontrol⟩
  · split at hroute
    · rw [List.mem_singleton.mp hroute] at hcontrol
      cases hcontrol
    · cases hroute

/-- **The deployed service is guarded.** For every Frame that describes a service and a server
block: a request that is proxied goes to the port of the service, and its path is that of no
built-in control route; and every absolute path but those two is proxied. -/
theorem deployment_guarded (frame : Frame) (urlsplit : String → Result Config.SplitResult)
    (resolve : String → String) (compile_path : String → Result Unit) (service : Config.Settings)
    (routes table : List Route) (text : String)
    (hsettings : settings_from_frame frame.get urlsplit resolve = .ok service)
    (htable : register_all compile_path service routes = .ok table)
    (htext : render_config frame .nginx = .ok text) :
    ∃ server, readServer text = some server ∧
      (∀ path upstream, handle server path = some (.proxy upstream) →
        upstream = ("http://127.0.0.1:" ++ toString service.port).toList ∧
        ∀ route ∈ table, route ∉ routes → control route.endpoint = true →
          route.path ≠ some (String.ofList path)) ∧
      ∀ path, path.head? = some '/' → path ≠ shutdownPath → path ≠ verbosePath →
        ∃ upstream, handle server path = some (.proxy upstream) := by
  obtain ⟨settings, hnginx, hrender⟩ := bind_ok htext
  refine ⟨rendered settings.service_port, readServer_rendered hrender, ?_, ?_⟩
  · intro path upstream hproxy
    have hshutdown : path ≠ shutdownPath := by
      rintro rfl
      cases (handle_shutdown _).symm.trans hproxy
    have hverbose : path ≠ verbosePath := by
      rintro rfl
      cases (handle_verbose _).symm.trans hproxy
    refine ⟨?_, fun route hroute hnew hcontrol hpath => ?_⟩
    · rw [handle_other _ hshutdown hverbose, service_port_eq hsettings hnginx] at hproxy
      split at hproxy
      · exact (Action.proxy.inj (Option.some.inj hproxy)).symm
      · cases hproxy
    · obtain ⟨p, hp, hguarded⟩ := control_route htable hroute hnew hcontrol
      obtain rfl := Option.some.inj (hp.symm.trans hpath)
      rw [String.toList_ofList] at hguarded
      exact hguarded.elim hshutdown hverbose
  · intro path hslash hshutdown hverbose
    exact ⟨_, (handle_other _ hshutdown hverbose).trans (if_pos hslash)⟩

/-! ### The packaged defaults behind a proxy -/

/-- What Nginx needs beside the defaults. -/
def certificates : List (String × Config.Value) :=
  [("nginx.server_name", .str "shop.example"), ("nginx.ssl_certificate", .str "/certs/shop.pem"),
    ("nginx.ssl_certificate_key", .str "/certs/shop.key")]

/-- The Frame of a service behind Nginx. -/
def proxied : Frame := fun name => ((Config.defaults ++ certificates).lookup name).map .ok

theorem settings_proxied : settings_from_frame proxied.get (fun s => .error s)
    (fun s => "/srv/" ++ s) = .ok Config.defaultSettings := by
  decide +kernel

theorem deployment_guarded_proxied :
    ∃ text server, render_config proxied .nginx = .ok text ∧ readServer text = some server ∧
      ∃ upstream, handle server "/items".toList = some (.proxy upstream) ∧
        upstream = "http://127.0.0.1:8080".toList := by
  obtain ⟨text, htext⟩ :=
    exists_ok (by decide +kernel : (render_config proxied .nginx).toOption.isSome = true)
  obtain ⟨server, hserver, hproxy, hother⟩ := deployment_guarded proxied (fun s => .error s)
    (fun s => "/srv/" ++ s) (fun _ => .ok ()) Config.defaultSettings []
    ((builtins Config.defaultSettings).map Builtin.route ++ [Routes.swagger_mount]) text
    settings_proxied (by decide +kernel) htext
  obtain ⟨upstream, hupstream⟩ := hother "/items".toList (by decide) (by decide) (by decide)
  exact ⟨text, server, htext, hserver, upstream, hupstream,
    (hproxy _ _ hupstream).1.trans (by decide)⟩

end LclFastapi.Render.Deployment
