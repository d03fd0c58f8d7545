import LclFastapi.Lib.Lexer
import LclFastapi.Render.Validation

/-!
# The Nginx server block (`render/nginx.py`)

`render_nginx` line by line, against a reader of Nginx configuration: words between white space,
the marks `;`, `{` and `}`, and quoted words in which a backslash protects a quote or a backslash
and writes controls (`nginx`). A `#` where a word could begin is not read, as it starts a comment.

* `lex_nginx_quote`: a quoted certificate path is one word, the path itself.
* **`nginx_tokens`**: the rendered block has the tokens of the template; of its words, only the
  ports, the server name and the two paths depend on the settings.
-/

namespace LclFastapi.Render

open Lib (Lexicon Token)
open LclFastapi.Runtime (Value)

/-! ## The renderer -/

/-- `NginxSettings`. -/
structure NginxSettings where
  server_name : String
  listen_port : Int
  service_port : Int
  certificate : String
  certificate_key : String

/-- A quoted path. -/
def nginx_quote (value : String) : Result String := do
  require (!value.toList.contains '$')
    "Nginx certificate paths cannot contain variable syntax ($)"
  let escaped := replace (replace value '\\' "\\\\") '"' "\\\""
  return "\"" ++ escaped ++ "\""

/-- `[A-Za-z0-9_.*-]+`. -/
def serverName (s : String) : Bool :=
  s.toList ≠ [] &&
    s.toList.all fun c => c.isAlphanum || c == '_' || c == '.' || c == '*' || c == '-'

/-- The lines of the template. -/
def nginxLines (listen : Int) (name certificate key : String) (port : Int) : List String :=
  ["server \x7b",
    "    listen " ++ toString listen ++ " ssl;",
    "    server_name " ++ name ++ ";",
    "    ssl_certificate " ++ certificate ++ ";",
    "    ssl_certificate_key " ++ key ++ ";",
    "",
    "    location = /_lcl/shutdown \x7b return 404; \x7d",
    "    location = /_lcl/logging/verbose \x7b return 404; \x7d"] ++
  ["",
    "    location / \x7b",
    "        proxy_pass http://127.0.0.1:" ++ toString port ++ ";",
    "        proxy_http_version 1.1;",
    "        proxy_set_header Host              $host;",
    "        proxy_set_header X-Real-IP         $remote_addr;",
    "        proxy_set_header X-Forwarded-For   $proxy_add_x_forwarded_for;",
    "        proxy_set_header X-Forwarded-Proto $scheme;",
    "        proxy_set_header X-Forwarded-Host  $host;",
    "        proxy_set_header Connection \"\";",
    "    \x7d",
    "\x7d",
    ""]

/-- `render_nginx(settings)`. -/
def render_nginx (settings : NginxSettings) : Result String := do
  let name ← text_value (.str settings.server_name) "nginx.server_name"
  require (serverName name) "nginx.server_name must be a single DNS name or wildcard"
  let listen ← integer_value (.int settings.listen_port) "nginx.listen_port" 1 65535
  let port ← integer_value (.int settings.service_port) "server.port" 1 65535
  let certificate ← absolute_path (.str settings.certificate) "nginx.ssl_certificate"
  let certificate ← nginx_quote certificate
  let key ← absolute_path (.str settings.certificate_key) "nginx.ssl_certificate_key"
  let key ← nginx_quote key
  return "\n".intercalate (nginxLines listen name certificate key port)

/-! ## The reader -/

/-- The configuration lexer of Nginx. -/
def nginx : Lexicon Char where
  space c := c == ' ' || c == '\t' || c == '\r' || c == '\n'
  mark c := c == ';' || c == '\x7b' || c == '\x7d'
  quote := '"'
  escape := '\\'
  unescape c :=
    if c = '"' ∨ c = '\\' then [c]
    else if c = 't' then ['\t']
    else if c = 'r' then ['\r']
    else if c = 'n' then ['\n']
    else ['\\', c]
  joins := false
  comment c := c == '#'

theorem nginx_lawful : nginx.Lawful :=
  ⟨by decide, by decide, by decide, by decide, by decide⟩

/-- A word of the template. -/
def word (s : String) : Token Char := .word s.toList

/-- A directive or the head of a block, with its closing mark. -/
def directive (words : List String) (mark : Char) : List (Token Char) :=
  words.map word ++ [.mark mark]

/-- The tokens of the template: the server block with its three locations. -/
def nginxTokens (listen name certificate key port : String) : List (Token Char) :=
  List.flatten
    [directive ["server"] '\x7b',
      directive ["listen", listen, "ssl"] ';',
      directive ["server_name", name] ';',
      directive ["ssl_certificate", certificate] ';',
      directive ["ssl_certificate_key", key] ';',
      directive ["location", "=", "/_lcl/shutdown"] '\x7b',
        directive ["return", "404"] ';',
      [.mark '\x7d'],
      directive ["location", "=", "/_lcl/logging/verbose"] '\x7b',
        directive ["return", "404"] ';',
      [.mark '\x7d'],
      directive ["location", "/"] '\x7b',
        directive ["proxy_pass", "http://127.0.0.1:" ++ port] ';',
        directive ["proxy_http_version", "1.1"] ';',
        directive ["proxy_set_header", "Host", "$host"] ';',
        directive ["proxy_set_header", "X-Real-IP", "$remote_addr"] ';',
        directive ["proxy_set_header", "X-Forwarded-For", "$proxy_add_x_forwarded_for"] ';',
        directive ["proxy_set_header", "X-Forwarded-Proto", "$scheme"] ';',
        directive ["proxy_set_header", "X-Forwarded-Host", "$host"] ';',
        directive ["proxy_set_header", "Connection", ""] ';',
      [.mark '\x7d'],
    [.mark '\x7d']]

/-! ## The words of the settings -/

/-- The two replacements protect each letter on its own. -/
theorem nginx_quote_ok {value quoted : String} (h : nginx_quote value = .ok quoted) :
    quoted.toList = nginx.quoted value.toList := by
  obtain ⟨u, -, h⟩ := bind_ok h
  cases h
  have hescaped : (replace (replace value '\\' "\\\\") '"' "\\\"").toList = value.toList.flatMap
      fun c => if c = nginx.escape ∨ c = nginx.quote then [nginx.escape, c] else [c] := by
    simp only [replace, String.toList_ofList, List.flatMap_assoc]
    refine List.flatMap_congr fun c _ => ?_
    by_cases he : c = '\\'
    · subst he
      rfl
    · by_cases hq : c = '"'
      · subst hq
        rfl
      · simp [he, hq, nginx]
  rw [String.toList_append, String.toList_append, hescaped]
  rfl

theorem lex_nginx_quote {value quoted : String} (h : nginx_quote value = .ok quoted) :
    nginx.lex quoted.toList = some [word value] := by
  rw [nginx_quote_ok h]
  exact Lexicon.lex_quote nginx_lawful value.toList

theorem plain_iff {c : Char} :
    nginx.plain c = true ↔ c ∉ [' ', '\t', '\r', '\n', ';', '\x7b', '\x7d', '#', '"', '\\'] := by
  simp only [Lexicon.plain, Lexicon.sep, Bool.not_eq_true', Bool.or_eq_false_iff,
    decide_eq_false_iff_not]
  simp [nginx, and_assoc]

theorem plain_of_isAlphanum {c : Char} (h : c.isAlphanum = true) : nginx.plain c = true := by
  refine plain_iff.mpr fun hc => ?_
  have hnone : [' ', '\t', '\r', '\n', ';', '\x7b', '\x7d', '#', '"', '\\'].all
      (fun d => !d.isAlphanum) = true := by decide
  have hletter := List.all_eq_true.mp hnone c hc
  rw [h] at hletter
  cases hletter

theorem lex_serverName {name : String} (h : serverName name = true) :
    nginx.lex name.toList = some [word name] := by
  unfold serverName at h
  rw [Bool.and_eq_true, decide_eq_true_eq, List.all_eq_true] at h
  refine Lexicon.lex_plain h.1 fun c hc => ?_
  have hname := h.2 c hc
  simp only [Bool.or_eq_true, beq_iff_eq] at hname
  obtain (((halnum | rfl) | rfl) | rfl) | rfl := hname
  · exact plain_of_isAlphanum halnum
  all_goals decide

theorem plain_of_digit {n : Int} (hn : 0 ≤ n) {c : Char} (hc : c ∈ (toString n).toList) :
    nginx.plain c = true := by
  have hdigit := isDigit_of_mem_toString hn hc
  exact plain_of_isAlphanum (by simp [Char.isAlphanum, hdigit])

theorem lex_listen {n : Int} (hn : 0 ≤ n) :
    nginx.lex (toString n).toList = some [word (toString n)] :=
  Lexicon.lex_plain (toString_ne_nil hn) fun _ => plain_of_digit hn

theorem lex_upstream {n : Int} (hn : 0 ≤ n) :
    nginx.lex ("http://127.0.0.1:" ++ toString n).toList =
      some [word ("http://127.0.0.1:" ++ toString n)] := by
  refine Lexicon.lex_plain ?_ fun c hc => ?_
  · rw [String.toList_append]
    exact List.cons_ne_nil _ _
  · rw [String.toList_append, List.mem_append] at hc
    rcases hc with hc | hc
    · have hplain : "http://127.0.0.1:".toList.all nginx.plain = true := by decide
      exact List.all_eq_true.mp hplain c hc
    · exact plain_of_digit hn hc

/-! ## The block -/

/-- A line of the template around a word of the settings. -/
theorem lex_line {x : String} {us : List (Token Char)} (hx : nginx.lex x.toList = some us)
    (lead tail : String) (ts vs : List (Token Char))
    (h : nginx.run .blank lead.toList = some (ts, .blank) ∧
      tail.toList.head?.any nginx.sep = true ∧ nginx.lex tail.toList = some vs) :
    nginx.lex (lead ++ x ++ tail).toList = some (ts ++ us ++ vs) := by
  rw [String.toList_append, String.toList_append]
  exact Lexicon.lex_between h.1 hx h.2.1 h.2.2

theorem nginxLines_ok {listen port : Int} {name certificate key c k : String} (hlisten : 0 ≤ listen)
    (hport : 0 ≤ port) (hname : nginx.lex name.toList = some [word name])
    (hcertificate : nginx.lex certificate.toList = some [word c])
    (hkey : nginx.lex key.toList = some [word k]) :
    nginx.lex ("\n".intercalate (nginxLines listen name certificate key port)).toList =
      some (nginxTokens (toString listen) name c k (toString port)) := by
  rw [String.toList_intercalate]
  have hlines : List.Forall₂ (fun line ts => nginx.lex line = some ts)
      ((nginxLines listen name certificate key port).map String.toList)
      [directive ["server"] '\x7b',
        directive ["listen", toString listen, "ssl"] ';',
        directive ["server_name", name] ';',
        directive ["ssl_certificate", c] ';',
        directive ["ssl_certificate_key", k] ';',
        [],
        directive ["location", "=", "/_lcl/shutdown"] '\x7b' ++
          (directive ["return", "404"] ';' ++ [.mark '\x7d']),
        directive ["location", "=", "/_lcl/logging/verbose"] '\x7b' ++
          (directive ["return", "404"] ';' ++ [.mark '\x7d']),
        [],
        directive ["location", "/"] '\x7b',
        directive ["proxy_pass", "http://127.0.0.1:" ++ toString port] ';',
        directive ["proxy_http_version", "1.1"] ';',
        directive ["proxy_set_header", "Host", "$host"] ';',
        directive ["proxy_set_header", "X-Real-IP", "$remote_addr"] ';',
        directive ["proxy_set_header", "X-Forwarded-For", "$proxy_add_x_forwarded_for"] ';',
        directive ["proxy_set_header", "X-Forwarded-Proto", "$scheme"] ';',
        directive ["proxy_set_header", "X-Forwarded-Host", "$host"] ';',
        directive ["proxy_set_header", "Connection", ""] ';',
        [.mark '\x7d'],
        [.mark '\x7d'],
        []] := by
    have hlistenLine := lex_line (lex_listen hlisten) "    listen " " ssl;" [word "listen"]
      [word "ssl", .mark ';'] (by decide +kernel)
    have hnameLine := lex_line hname "    server_name " ";" [word "server_name"] [.mark ';']
      (by decide +kernel)
    have hcertificateLine := lex_line hcertificate "    ssl_certificate " ";"
      [word "ssl_certificate"] [.mark ';'] (by decide +kernel)
    have hkeyLine := lex_line hkey "    ssl_certificate_key " ";" [word "ssl_certificate_key"]
      [.mark ';'] (by decide +kernel)
    have hportLine := lex_line (lex_upstream hport) "        proxy_pass " ";" [word "proxy_pass"]
      [.mark ';'] (by decide +kernel)
    have hproxy : "        proxy_pass " ++ ("http://127.0.0.1:" ++ toString port) =
        "        proxy_pass http://127.0.0.1:" ++ toString port := by
      rw [← String.append_assoc]
      rfl
    rw [hproxy] at hportLine
    refine .cons (by decide +kernel) (.cons hlistenLine (.cons hnameLine (.cons hcertificateLine
      (.cons hkeyLine (.cons rfl (.cons (by decide +kernel) (.cons (by decide +kernel) (.cons rfl
        (.cons (by decide +kernel) (.cons hportLine ?_))))))))))
    repeat (first | exact .nil | refine .cons (by decide +kernel) ?_)
  have hnewline : "\n".toList = ['\n'] := rfl
  rw [hnewline, Lexicon.lex_lines (by decide +kernel) (by decide +kernel) hlines]
  simp only [nginxTokens, List.flatten_cons, List.append_assoc, List.nil_append, List.flatten_nil]

/-- **The rendered block is the template**, whatever the accepted settings are. -/
theorem nginx_tokens (settings : NginxSettings) (text : String)
    (h : render_nginx settings = .ok text) :
    nginx.lex text.toList = some (nginxTokens (toString settings.listen_port) settings.server_name
      settings.certificate settings.certificate_key (toString settings.service_port)) := by
  unfold render_nginx at h
  obtain ⟨name, hname, h⟩ := bind_ok h
  obtain ⟨u, hserver, h⟩ := bind_ok h
  obtain ⟨listen, hlisten, h⟩ := bind_ok h
  obtain ⟨port, hport, h⟩ := bind_ok h
  obtain ⟨certificate, hcertificate, h⟩ := bind_ok h
  obtain ⟨quotedCertificate, hquotedCertificate, h⟩ := bind_ok h
  obtain ⟨key, hkey, h⟩ := bind_ok h
  obtain ⟨quotedKey, hquotedKey, h⟩ := bind_ok h
  rw [← Except.ok.inj h]
  obtain ⟨hname, -⟩ := text_value_ok hname
  obtain ⟨hlisten, hlistenMin, -⟩ := integer_value_ok hlisten
  obtain ⟨hport, hportMin, -⟩ := integer_value_ok hport
  obtain ⟨hcertificate, -⟩ := absolute_path_ok hcertificate
  obtain ⟨hkey, -⟩ := absolute_path_ok hkey
  cases hname
  cases hlisten
  cases hport
  cases hcertificate
  cases hkey
  exact nginxLines_ok (by omega) (by omega) (lex_serverName (require_ok hserver))
    (lex_nginx_quote hquotedCertificate) (lex_nginx_quote hquotedKey)

/-- A certificate path that tries to close its quotes and swallow the line below it. -/
def hostilePath : NginxSettings where
  server_name := "*.example.com"
  listen_port := 443
  service_port := 8080
  certificate := "/certs/\"; \x7d # \\"
  certificate_key := "/certs/a b.key"

theorem nginx_tokens_hostilePath :
    ∃ text, render_nginx hostilePath = .ok text ∧
      nginx.lex text.toList = some (nginxTokens "443" "*.example.com" "/certs/\"; \x7d # \\"
        "/certs/a b.key" "8080") := by
  obtain ⟨text, h⟩ := exists_ok (by decide : (render_nginx hostilePath).toOption.isSome = true)
  have hlisten : toString hostilePath.listen_port = "443" := by decide
  have hport : toString hostilePath.service_port = "8080" := by decide
  have htokens := nginx_tokens hostilePath text h
  rw [hlisten, hport] at htokens
  exact ⟨text, h, htokens⟩

end LclFastapi.Render
