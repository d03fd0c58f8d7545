import LclFastapi.Lib.Lexer
import LclFastapi.Render.Validation

/-!
# The systemd unit (`render/systemd.py`)

`render_systemd` line by line, against a reader of unit files: a line that ends in a backslash
continues on the next one (`joinLines`), blank lines and comments are ignored, the other lines are
headings and settings, trimmed (`readLine`), `%%` stands for `%`, and `ExecStart` is split into
quoted words in which `$$` stands for `$` (`command`).

* `line_setting`, `line_bare`, `line_command`: what the lines of the settings are read as.
* `readAll_lines`: lines that do not end in a backslash are read one by one.
* **`means_iff`**: the rendered unit means its settings if and only if the description does not end
  in a backslash. The working directory is checked for one (`Accepted.ends`), the description is
  not (`trailing_not_means`), and a backslash there joins the `After` line to the description.
-/

namespace LclFastapi.Render

open Lib (Lexicon Token double undouble)
open LclFastapi.Runtime (Value)

/-! ## The renderer -/

/-- `SystemdSettings`. -/
structure SystemdSettings where
  service_name : String
  description : String
  user : String
  group : String
  working_directory : String
  config_path : String
  restart : String := "on-failure"
  restart_seconds : Int := 5

/-- A quoted argument of `ExecStart`. -/
def systemd_quote (value : String) : String :=
  let escaped := replace (replace (replace value '\\' "\\\\") '"' "\\\"") '%' "%%"
  let escaped := replace escaped '$' "$$"
  "\"" ++ escaped ++ "\""

/-- The supported restart policies. -/
def policies : List String :=
  ["no", "always", "on-success", "on-failure", "on-abnormal", "on-watchdog", "on-abort"]

/-- `s.rstrip("/")`. -/
def rstripSlashes (s : String) : String := String.ofList (s.toList.rdropWhile (· == '/'))

/-- The lines of the template. -/
def systemdLines (name description user group directory executable config restart : String)
    (delay : Int) : List String :=
  ["# " ++ name ++ ".service",
    "[Unit]",
    "Description=" ++ description,
    "After=network.target",
    "",
    "[Service]",
    "Type=simple",
    "User=" ++ user,
    "Group=" ++ group,
    "WorkingDirectory=" ++ replace directory '%' "%%",
    "ExecStart=" ++ executable ++ " serve -o config " ++ systemd_quote config,
    "Restart=" ++ restart,
    "RestartSec=" ++ toString delay,
    "KillMode=mixed",
    "",
    "[Install]",
    "WantedBy=multi-user.target",
    ""]

/-- `render_systemd(settings)`. -/
def render_systemd (settings : SystemdSettings) : Result String := do
  let name ← identifier (.str settings.service_name) "systemd.service_name"
  let description ← text_value (.str settings.description) "systemd.description"
  let description := replace description '%' "%%"
  let user ← identifier (.str settings.user) "systemd.user"
  let group ← identifier (.str settings.group) "systemd.group"
  let directory ← absolute_path (.str settings.working_directory) "systemd.working_directory"
  require (directory == strip directory && directory.toList.getLast? != some '\\')
    "systemd.working_directory cannot end in whitespace or a backslash"
  let config ← absolute_path (.str settings.config_path) "systemd.config_path"
  let restart := settings.restart
  require (policies.contains restart) "systemd.restart must be a supported systemd restart policy"
  let delay ← integer_value (.int settings.restart_seconds) "systemd.restart_seconds" 0 86400
  let executable := systemd_quote (rstripSlashes directory ++ "/.venv/bin/lcl-fastapi")
  return "\n".intercalate
    (systemdLines name description user group directory executable config restart delay)

/-! ## The reader -/

/-- White space of a unit file. -/
def white (c : Char) : Bool := c == ' ' || c == '\t' || c == '\n' || c == '\r'

/-- A line without the white space around it. -/
def trim (s : List Char) : List Char := (s.dropWhile white).rdropWhile white

/-- What a line of a unit file says. -/
inductive Item where
  | heading (name : List Char)
  | setting (key value : List Char)
  | command (words : List (List Char))
  deriving DecidableEq

/-- The words of a command line. -/
def words : Lexicon Char where
  space := white
  mark _ := false
  quote := '"'
  escape := '\\'
  unescape c := if c = '"' ∨ c = '\\' then [c] else ['\\', c]
  joins := true
  comment _ := false

/-- A word of a command line: `%%`, then `$$`. -/
def argument : Token Char → Option (List Char)
  | .word w => (undouble '%' w).bind (undouble '$')
  | .mark _ => none

/-- The value of `ExecStart`, split into words. -/
def command (value : List Char) : Option (List (List Char)) :=
  (words.lex value).bind fun tokens => tokens.mapM argument

/-- `Key=value`. -/
def assignment (line : List Char) : Option (List Item) :=
  let key := trim (line.takeWhile (· != '='))
  match line.dropWhile (· != '=') with
  | [] => none
  | _ :: value =>
    if key = "ExecStart".toList then (command (trim value)).map fun ws => [.command ws]
    else (undouble '%' (trim value)).map fun v => [.setting key v]

/-- A line, joined with those it continues on: ignored, or one item, or malformed. -/
def readLine (line : List Char) : Option (List Item) :=
  match line.dropWhile white with
  | [] => some []
  | c :: cs =>
    if c = '#' ∨ c = ';' then some []
    else if c = '[' then
      let name := cs.rdropWhile white
      if name.getLast? = some ']' then some [.heading name.dropLast] else none
    else assignment (c :: cs)

/-- The line ends in a backslash. -/
def continues (line : List Char) : Bool := line.getLast? == some '\\'

/-- A line that ends in a backslash goes on with the next line, after a space. -/
def joinLines (pending : List Char) : List (List Char) → List (List Char)
  | [] => [pending]
  | line :: lines =>
    if continues line then joinLines (pending ++ line.dropLast ++ [' ']) lines
    else (pending ++ line) :: joinLines [] lines

/-- The items of all lines. -/
def readLines : List (List Char) → Option (List Item)
  | [] => some []
  | line :: lines => (readLine line).bind fun items => (readLines lines).map (items ++ ·)

/-- What a reader makes of a unit file. -/
def readUnit (text : List Char) : Option (List Item) :=
  readLines (joinLines [] (text.splitOn '\n'))

/-- A setting of the template. -/
def setting (key value : String) : Item := .setting key.toList value.toList

/-- The unit that the settings describe. -/
def unitOf (settings : SystemdSettings) : List Item :=
  [.heading "Unit".toList,
    .setting "Description".toList (trim settings.description.toList),
    setting "After" "network.target",
    .heading "Service".toList,
    setting "Type" "simple",
    setting "User" settings.user,
    setting "Group" settings.group,
    setting "WorkingDirectory" settings.working_directory,
    .command ([rstripSlashes settings.working_directory ++ "/.venv/bin/lcl-fastapi", "serve", "-o",
      "config", settings.config_path].map String.toList),
    setting "Restart" settings.restart,
    setting "RestartSec" (toString settings.restart_seconds),
    setting "KillMode" "mixed",
    .heading "Install".toList,
    setting "WantedBy" "multi-user.target"]

/-- The text is read as exactly the settings. -/
def Means (text : String) (settings : SystemdSettings) : Prop :=
  readUnit text.toList = some (unitOf settings)

/-! ## White space -/

theorem white_of_isspace {c : Char} (h : white c = true) : isspace c = true := by
  unfold white at h
  simp only [Bool.or_eq_true, beq_iff_eq] at h
  obtain ((rfl | rfl) | rfl) | rfl := h
  all_goals decide

/-- Text that neither begins nor ends with white space. -/
theorem trim_self {s : List Char} (hhead : ∀ c, s.head? = some c → white c = false)
    (hlast : ∀ c, s.getLast? = some c → white c = false) : trim s = s := by
  have hdrop : s.dropWhile white = s := by
    cases s with
    | nil => rfl
    | cons c s =>
      rw [List.dropWhile_cons, if_neg]
      rw [hhead c rfl]
      exact Bool.false_ne_true
  unfold trim
  rw [hdrop, List.rdropWhile_eq_self_iff]
  intro hne
  rw [hlast _ (List.getLast?_eq_some_getLast hne)]
  exact Bool.false_ne_true

theorem trim_double (s : List Char) : trim (double '%' s) = double '%' (trim s) := by
  have hwhite : white '%' = false := by decide
  unfold trim List.rdropWhile
  rw [Lib.dropWhile_double hwhite, Lib.double_reverse, Lib.dropWhile_double hwhite,
    Lib.double_reverse]

/-! ## Bare text -/

/-- The letters with a meaning in a unit file. -/
def unitSyntax : List Char := [' ', '\t', '\n', '\r', '#', ';', '[', '=', '\\', '%', '"', '$']

/-- Text that stands for itself: a key, an identifier, a number. -/
def Bare (s : List Char) : Prop := s ≠ [] ∧ ∀ c ∈ s, c ∉ unitSyntax

instance (s : List Char) : Decidable (Bare s) :=
  have : Decidable (∀ c ∈ s, c ∉ unitSyntax) := List.decidableBAll _ s
  inferInstanceAs (Decidable (s ≠ [] ∧ ∀ c ∈ s, c ∉ unitSyntax))

theorem white_of_notMem {c : Char} (h : c ∉ unitSyntax) : white c = false := by
  by_contra hwhite
  rw [Bool.not_eq_false] at hwhite
  unfold white at hwhite
  simp only [Bool.or_eq_true, beq_iff_eq] at hwhite
  obtain ((rfl | rfl) | rfl) | rfl := hwhite
  all_goals exact h (by decide)

theorem notMem_of_isAlphanum {c : Char} (h : c.isAlphanum = true) : c ∉ unitSyntax := by
  intro hc
  have hnone : unitSyntax.all (fun d => !d.isAlphanum) = true := by decide
  have hletter := List.all_eq_true.mp hnone c hc
  rw [h] at hletter
  cases hletter

namespace Bare

variable {s : List Char}

theorem of_identifier (h : identifierText s = true) : Bare s := by
  unfold identifierText at h
  cases s with
  | nil => cases h
  | cons c s =>
    simp only [Bool.and_eq_true, List.all_eq_true, Bool.or_eq_true, beq_iff_eq] at h
    refine ⟨List.cons_ne_nil _ _, fun d hd => ?_⟩
    have hletter : ((d.isAlphanum = true ∨ d = '_') ∨ d = '.') ∨ d = '-' := by
      rcases List.mem_cons.mp hd with rfl | hd
      · exact .inl (.inl h.1)
      · exact h.2 d hd
    obtain ((halnum | rfl) | rfl) | rfl := hletter
    · exact notMem_of_isAlphanum halnum
    all_goals decide

theorem of_toString {n : Int} (hn : 0 ≤ n) : Bare (toString n).toList := by
  refine ⟨toString_ne_nil hn, fun c hc => notMem_of_isAlphanum ?_⟩
  have hdigit := isDigit_of_mem_toString hn hc
  simp [Char.isAlphanum, hdigit]

theorem trim (h : Bare s) : trim s = s :=
  trim_self (fun c hc => white_of_notMem (h.2 c (List.mem_of_head? hc)))
    fun c hc => white_of_notMem (h.2 c (List.mem_of_getLast? hc))

theorem notMem (h : Bare s) {c : Char} (hc : c ∈ unitSyntax) : c ∉ s := fun hs => h.2 c hs hc

end Bare

/-! ## Lines -/

variable {key value : List Char}

/-- A line with a key is an assignment, whatever its value is. -/
theorem readLine_assignment (hkey : Bare key) :
    readLine (key ++ '=' :: value) =
      if key = "ExecStart".toList then (command (trim value)).map fun ws => [.command ws]
      else (undouble '%' (trim value)).map fun v => [.setting key v] := by
  have hassign : ∀ c ∈ key, (c != '=') = true := fun c hc =>
    bne_iff_ne.mpr fun heq => hkey.notMem (by decide) (heq ▸ hc)
  have htake : (key ++ '=' :: value).takeWhile (· != '=') = key := by
    rw [List.takeWhile_append_of_pos hassign]
    simp
  have hdrop : (key ++ '=' :: value).dropWhile (· != '=') = '=' :: value := by
    rw [List.dropWhile_append_of_pos hassign]
    rfl
  have hline : readLine (key ++ '=' :: value) = assignment (key ++ '=' :: value) := by
    obtain ⟨hne, hletters⟩ := hkey
    cases key with
    | nil => exact absurd rfl hne
    | cons c key =>
      have hc := hletters c (.head _)
      unfold readLine
      rw [List.cons_append, List.dropWhile_cons, white_of_notMem hc]
      simp only [unitSyntax, List.mem_cons, not_or] at hc
      simp [hc]
  rw [hline]
  unfold assignment
  rw [htake, hdrop, hkey.trim]

/-- A line that is read alone. -/
def Line (line : List Char) (items : List Item) : Prop :=
  '\n' ∉ line ∧ continues line = false ∧ readLine line = some items

instance (line : List Char) (items : List Item) : Decidable (Line line items) :=
  inferInstanceAs (Decidable (_ ∧ _ ∧ _))

theorem continues_assignment : continues (key ++ '=' :: value) = continues value := by
  unfold continues
  cases value using List.reverseRecOn with
  | nil => simp
  | append_singleton value c _ =>
    have hlast : key ++ '=' :: (value ++ [c]) = (key ++ '=' :: value) ++ [c] := by simp
    rw [hlast, List.getLast?_concat, List.getLast?_concat]

theorem newline_assignment (hkey : Bare key) (hvalue : '\n' ∉ value) :
    '\n' ∉ key ++ '=' :: value := by
  rw [List.mem_append, List.mem_cons, not_or, not_or]
  exact ⟨hkey.notMem (by decide), by decide, hvalue⟩

/-- A setting, with the specifiers of its value protected. -/
theorem readLine_setting (hkey : Bare key) (hexec : key ≠ "ExecStart".toList) :
    readLine (key ++ '=' :: double '%' value) = some [.setting key (trim value)] := by
  rw [readLine_assignment hkey, if_neg hexec, trim_double, Lib.undouble_double]
  rfl

theorem line_setting (hkey : Bare key) (hexec : key ≠ "ExecStart".toList) (hvalue : '\n' ∉ value)
    (hends : continues value = false) :
    Line (key ++ '=' :: double '%' value) [.setting key (trim value)] := by
  refine ⟨newline_assignment hkey (Lib.mem_double.not.mpr hvalue), ?_, readLine_setting hkey hexec⟩
  rw [continues_assignment]
  unfold continues at hends ⊢
  rwa [Lib.getLast?_double]

theorem Bare.continues {s : List Char} (h : Bare s) : continues s = false := by
  by_contra hs
  rw [Bool.not_eq_false] at hs
  exact h.notMem (by decide) (List.mem_of_getLast? (beq_iff_eq.mp hs))

/-- A setting with a bare value. -/
theorem line_bare (hkey : Bare key) (hexec : key ≠ "ExecStart".toList) (hvalue : Bare value) :
    Line (key ++ '=' :: value) [.setting key value] := by
  have hline := line_setting hkey hexec (hvalue.notMem (by decide)) hvalue.continues
  rwa [Lib.double_of_notMem (hvalue.notMem (by decide)), hvalue.trim] at hline

/-! ## The command -/

theorem words_lawful : words.Lawful :=
  ⟨by decide, by decide, by decide, by decide, by decide⟩

/-- The four replacements protect each letter on its own. -/
theorem toList_systemd_quote (value : String) :
    (systemd_quote value).toList = words.quoted (double '$' (double '%' value.toList)) := by
  unfold systemd_quote Lexicon.quoted double
  simp only [replace, String.toList_append, String.toList_ofList, List.flatMap_assoc]
  have hletters : ∀ f g : Char → List Char, f = g →
      "\"".toList ++ value.toList.flatMap f ++ "\"".toList =
        words.quote :: value.toList.flatMap g ++ [words.quote] := by
    rintro f g rfl
    rfl
  refine hletters _ _ (funext fun c => ?_)
  by_cases hescape : c = '\\'
  · subst hescape
    rfl
  by_cases hquote : c = '"'
  · subst hquote
    rfl
  by_cases hpercent : c = '%'
  · subst hpercent
    rfl
  by_cases hdollar : c = '$'
  · subst hdollar
    rfl
  simp [hescape, hquote, hpercent, hdollar, words]

theorem argument_double (s : List Char) :
    argument (.word (double '$' (double '%' s))) = some s := by
  show (undouble '%' (double '$' (double '%' s))).bind (undouble '$') = some s
  rw [Lib.double_comm, Lib.undouble_double, Option.bind_some, Lib.undouble_double]

/-- The command line of the template. -/
def commandLine (program config : List Char) : List Char :=
  words.quoted (double '$' (double '%' program)) ++
    (" serve -o config ".toList ++ words.quoted (double '$' (double '%' config)))

theorem lex_commandLine (program config : List Char) :
    words.lex (commandLine program config) =
      some [.word (double '$' (double '%' program)), .word "serve".toList, .word "-o".toList,
        .word "config".toList, .word (double '$' (double '%' config))] := by
  have hserve : words.run .blank " serve -o config ".toList =
      some ([.word "serve".toList, .word "-o".toList, .word "config".toList], .blank) := by decide
  have hconfig : words.lex (" serve -o config ".toList ++
      words.quoted (double '$' (double '%' config))) =
        some [.word "serve".toList, .word "-o".toList, .word "config".toList,
          .word (double '$' (double '%' config))] := by
    rw [Lexicon.lex_blank hserve, Lexicon.lex_quote words_lawful]
    rfl
  have hprogram := Lexicon.lex_quote words_lawful (double '$' (double '%' program))
  have hnil : words.run .blank [] = some ([], .blank) := rfl
  exact Lexicon.lex_between hnil hprogram rfl hconfig

/-- **The command line is its five words.** -/
theorem command_commandLine (program config : List Char) :
    command (commandLine program config) =
      some [program, "serve".toList, "-o".toList, "config".toList, config] := by
  have hserve : argument (.word "serve".toList) = some "serve".toList := by decide
  have hoption : argument (.word "-o".toList) = some "-o".toList := by decide
  have hconfig : argument (.word "config".toList) = some "config".toList := by decide
  unfold command
  rw [lex_commandLine]
  simp only [Option.bind_some, List.mapM_cons, List.mapM_nil, argument_double, hserve, hoption,
    hconfig, Option.bind_eq_bind, Option.pure_def]

theorem notMem_commandLine {program config : List Char} (hprogram : '\n' ∉ program)
    (hconfig : '\n' ∉ config) : '\n' ∉ commandLine program config := by
  have hquoted {s : List Char} (hs : '\n' ∉ s) : '\n' ∉ words.quoted (double '$' (double '%' s)) :=
    Lexicon.notMem_quoted (by decide) (by decide) (by rwa [Lib.mem_double, Lib.mem_double])
  unfold commandLine
  rw [List.mem_append, List.mem_append, not_or, not_or]
  exact ⟨hquoted hprogram, by decide, hquoted hconfig⟩

theorem getLast?_commandLine (program config : List Char) :
    (commandLine program config).getLast? = some '"' := by
  unfold commandLine Lexicon.quoted
  rw [List.getLast?_append, List.getLast?_append, List.getLast?_concat]
  rfl

theorem line_command {program config : List Char} (hprogram : '\n' ∉ program)
    (hconfig : '\n' ∉ config) :
    Line ("ExecStart".toList ++ '=' :: commandLine program config)
      [.command [program, "serve".toList, "-o".toList, "config".toList, config]] := by
  have hquote : ∀ c, some '"' = some c → white c = false := by
    rintro c ⟨⟩
    decide
  have htrim : trim (commandLine program config) = commandLine program config :=
    trim_self hquote (by rwa [getLast?_commandLine])
  refine ⟨newline_assignment (by decide) (notMem_commandLine hprogram hconfig), ?_, ?_⟩
  · rw [continues_assignment]
    unfold continues
    rw [getLast?_commandLine]
    decide
  · rw [readLine_assignment (by decide), if_pos rfl, htrim, command_commandLine]
    rfl

/-! ## Texts -/

/-- What the lines of a text are read as. -/
def readAll (lines : List (List Char)) : Option (List Item) := readLines (joinLines [] lines)

variable {lines : List (List Char)} {line : List Char} {items : List Item}

theorem readAll_cons (h : Line line items) :
    readAll (line :: lines) = (readAll lines).map fun rest => items ++ rest := by
  obtain ⟨-, hends, hreads⟩ := h
  unfold readAll
  rw [joinLines, hends, if_neg Bool.false_ne_true, List.nil_append, readLines, hreads]
  rfl

/-- **A text is read line by line** if no line goes on with the next one. -/
theorem readAll_lines {itemss : List (List Item)} (h : List.Forall₂ Line lines itemss) :
    readAll lines = some itemss.flatten := by
  induction h with
  | nil => rfl
  | cons hline _ ih =>
    rw [readAll_cons hline, ih]
    rfl

/-- A line that goes on with the next one. -/
theorem readAll_continued {next : List Char} (h : continues line = true)
    (hnext : continues next = false) :
    readAll (line :: next :: lines) =
      (readLine (line.dropLast ++ [' '] ++ next)).bind fun items =>
        (readAll lines).map fun rest => items ++ rest := by
  unfold readAll
  rw [joinLines, if_pos h, joinLines, hnext, if_neg Bool.false_ne_true, readLines]
  rfl

theorem newline_lines {itemss : List (List Item)} (h : List.Forall₂ Line lines itemss) :
    ∀ line ∈ lines, '\n' ∉ line := by
  induction h with
  | nil => exact fun line hline => absurd hline List.not_mem_nil
  | cons hline _ ih =>
    intro line hmem
    rcases List.mem_cons.mp hmem with rfl | hmem
    · exact hline.1
    · exact ih line hmem

theorem readUnit_intercalate {texts : List String} (h : texts.map String.toList = lines)
    (hne : lines ≠ []) (hnewline : ∀ line ∈ lines, '\n' ∉ line) :
    readUnit ("\n".intercalate texts).toList = readAll lines := by
  have hsep : "\n".toList = ['\n'] := rfl
  unfold readUnit readAll
  rw [String.toList_intercalate, hsep, h, List.splitOn_intercalate '\n' hnewline hne]

/-! ## The unit -/

/-- The lines of the template after the description. -/
def tailLines (user group directory executable config restart : String) (delay : Int) :
    List (List Char) :=
  ["After=network.target".toList, "".toList, "[Service]".toList, "Type=simple".toList,
    "User".toList ++ '=' :: user.toList, "Group".toList ++ '=' :: group.toList,
    "WorkingDirectory".toList ++ '=' :: double '%' directory.toList,
    "ExecStart".toList ++ '=' :: commandLine executable.toList config.toList,
    "Restart".toList ++ '=' :: restart.toList,
    "RestartSec".toList ++ '=' :: (toString delay).toList,
    "KillMode=mixed".toList, "".toList, "[Install]".toList, "WantedBy=multi-user.target".toList,
    "".toList]

theorem toList_replace (s : String) : (replace s '%' "%%").toList = double '%' s.toList := by
  unfold replace
  rw [String.toList_ofList]
  rfl

theorem toList_systemdLines (name description user group directory executable config restart :
    String) (delay : Int) :
    (systemdLines name (replace description '%' "%%") user group directory
      (systemd_quote executable) config restart delay).map String.toList =
      ("# ".toList ++ name.toList ++ ".service".toList) :: "[Unit]".toList ::
        ("Description".toList ++ '=' :: double '%' description.toList) ::
          tailLines user group directory executable config restart delay := by
  have hdescription : "Description=".toList = "Description".toList ++ ['='] := by decide
  have huser : "User=".toList = "User".toList ++ ['='] := by decide
  have hgroup : "Group=".toList = "Group".toList ++ ['='] := by decide
  have hdirectory : "WorkingDirectory=".toList = "WorkingDirectory".toList ++ ['='] := by decide
  have hexec : "ExecStart=".toList = "ExecStart".toList ++ ['='] := by decide
  have hrestart : "Restart=".toList = "Restart".toList ++ ['='] := by decide
  have hdelay : "RestartSec=".toList = "RestartSec".toList ++ ['='] := by decide
  unfold systemdLines tailLines commandLine
  simp only [List.map_cons, List.map_nil, String.toList_append, toList_replace,
    toList_systemd_quote, hdescription, huser, hgroup, hdirectory, hexec, hrestart, hdelay,
    List.append_assoc, List.cons_append, List.nil_append]

/-- What `render_systemd` checks. -/
structure Accepted (settings : SystemdSettings) : Prop where
  service_name : Bare settings.service_name.toList
  description : OneLine settings.description
  user : Bare settings.user.toList
  group : Bare settings.group.toList
  directory : OneLine settings.working_directory
  absolute : settings.working_directory.toList.head? = some '/'
  stripped : strip settings.working_directory = settings.working_directory
  ends : continues settings.working_directory.toList = false
  config : OneLine settings.config_path
  restart : settings.restart ∈ policies
  delay : 0 ≤ settings.restart_seconds

/-- The text that the settings are rendered as. -/
def unitText (settings : SystemdSettings) : String :=
  "\n".intercalate (systemdLines settings.service_name (replace settings.description '%' "%%")
    settings.user settings.group settings.working_directory
    (systemd_quote (rstripSlashes settings.working_directory ++ "/.venv/bin/lcl-fastapi"))
    settings.config_path settings.restart settings.restart_seconds)

theorem render_systemd_ok {settings : SystemdSettings} {text : String}
    (h : render_systemd settings = .ok text) : Accepted settings ∧ text = unitText settings := by
  unfold render_systemd at h
  obtain ⟨name, hname, h⟩ := bind_ok h
  obtain ⟨description, hdescription, h⟩ := bind_ok h
  obtain ⟨user, huser, h⟩ := bind_ok h
  obtain ⟨group, hgroup, h⟩ := bind_ok h
  obtain ⟨directory, hdirectory, h⟩ := bind_ok h
  obtain ⟨u, hends, h⟩ := bind_ok h
  obtain ⟨config, hconfig, h⟩ := bind_ok h
  obtain ⟨u, hrestart, h⟩ := bind_ok h
  obtain ⟨delay, hdelay, h⟩ := bind_ok h
  obtain ⟨hname, -, hbareName⟩ := identifier_ok hname
  obtain ⟨hdescription, hlineDescription⟩ := text_value_ok hdescription
  obtain ⟨huser, -, hbareUser⟩ := identifier_ok huser
  obtain ⟨hgroup, -, hbareGroup⟩ := identifier_ok hgroup
  obtain ⟨hdirectory, hlineDirectory, habsolute⟩ := absolute_path_ok hdirectory
  obtain ⟨hconfig, hlineConfig, -⟩ := absolute_path_ok hconfig
  obtain ⟨hdelay, hminimum, -⟩ := integer_value_ok hdelay
  cases hname
  cases hdescription
  cases huser
  cases hgroup
  cases hdirectory
  cases hconfig
  cases hdelay
  have hends := require_ok hends
  rw [Bool.and_eq_true, beq_iff_eq, bne_iff_ne] at hends
  exact ⟨{
    service_name := .of_identifier hbareName
    description := hlineDescription
    user := .of_identifier hbareUser
    group := .of_identifier hbareGroup
    directory := hlineDirectory
    absolute := habsolute
    stripped := hends.1.symm
    ends := beq_eq_false_iff_ne.mpr hends.2
    config := hlineConfig
    restart := List.contains_iff_mem.mp (require_ok hrestart)
    delay := hminimum }, (Except.ok.inj h).symm⟩

theorem line_comment {name : List Char} (h : '\n' ∉ name) :
    Line ("# ".toList ++ name ++ ".service".toList) [] := by
  refine ⟨?_, ?_, rfl⟩
  · rw [List.mem_append, List.mem_append, not_or, not_or]
    exact ⟨⟨by decide, h⟩, by decide⟩
  · unfold continues
    rw [List.getLast?_append]
    rfl

namespace Accepted

variable {settings : SystemdSettings}

theorem trim_directory (h : Accepted settings) :
    trim settings.working_directory.toList = settings.working_directory.toList := by
  have hstrip := congrArg String.toList h.stripped
  unfold strip at hstrip
  rw [String.toList_ofList] at hstrip
  have hdrop : settings.working_directory.toList.dropWhile isspace =
      settings.working_directory.toList := by
    have hhead := h.absolute
    generalize settings.working_directory.toList = s at hhead ⊢
    cases s with
    | nil => rfl
    | cons c s =>
      cases hhead
      rfl
  rw [hdrop, List.rdropWhile_eq_self_iff] at hstrip
  refine trim_self (fun c hc => ?_) fun c hc => ?_
  · rw [h.absolute] at hc
    cases hc
    decide
  · have hne := h.directory.nonempty
    have hlast := (List.getLast_eq_iff_getLast?_eq_some hne).mpr hc
    by_contra hwhite
    rw [Bool.not_eq_false] at hwhite
    exact hstrip hne (hlast ▸ white_of_isspace hwhite)

theorem newline_program (h : Accepted settings) :
    '\n' ∉ (rstripSlashes settings.working_directory ++ "/.venv/bin/lcl-fastapi").toList := by
  have hdirectory : '\n' ∉ (rstripSlashes settings.working_directory).toList := by
    unfold rstripSlashes
    rw [String.toList_ofList]
    exact fun hc => h.directory.newline ((List.rdropWhile_prefix _ _).subset hc)
  rw [String.toList_append, List.mem_append, not_or]
  exact ⟨hdirectory, by decide⟩

theorem lines_tail (h : Accepted settings) :
    List.Forall₂ Line
      (tailLines settings.user settings.group settings.working_directory
        (rstripSlashes settings.working_directory ++ "/.venv/bin/lcl-fastapi")
        settings.config_path settings.restart settings.restart_seconds)
      [[setting "After" "network.target"], [], [.heading "Service".toList],
        [setting "Type" "simple"], [setting "User" settings.user],
        [setting "Group" settings.group], [setting "WorkingDirectory" settings.working_directory],
        [.command ([rstripSlashes settings.working_directory ++ "/.venv/bin/lcl-fastapi", "serve",
          "-o", "config", settings.config_path].map String.toList)],
        [setting "Restart" settings.restart],
        [setting "RestartSec" (toString settings.restart_seconds)],
        [setting "KillMode" "mixed"], [], [.heading "Install".toList],
        [setting "WantedBy" "multi-user.target"], []] := by
  have hdirectory := line_setting (by decide : Bare "WorkingDirectory".toList) (by decide)
    h.directory.newline h.ends
  rw [h.trim_directory] at hdirectory
  have hrestart : Bare settings.restart.toList := by
    have hall : ∀ policy ∈ policies, Bare policy.toList := by decide
    exact hall _ h.restart
  refine .cons (by decide) (.cons (by decide) (.cons (by decide) (.cons (by decide)
    (.cons (line_bare (by decide) (by decide) h.user)
    (.cons (line_bare (by decide) (by decide) h.group)
    (.cons hdirectory (.cons (line_command h.newline_program h.config.newline)
    (.cons (line_bare (by decide) (by decide) hrestart)
    (.cons (line_bare (by decide) (by decide) (.of_toString h.delay)) ?_)))))))))
  exact .cons (by decide) (.cons (by decide) (.cons (by decide) (.cons (by decide)
    (.cons (by decide) .nil))))

/-- The lines of the description and of what follows decide what the text is read as. -/
theorem readUnit_unitText (h : Accepted settings) :
    readUnit (unitText settings).toList =
      (readAll (("Description".toList ++ '=' :: double '%' settings.description.toList) ::
        tailLines settings.user settings.group settings.working_directory
          (rstripSlashes settings.working_directory ++ "/.venv/bin/lcl-fastapi")
          settings.config_path settings.restart settings.restart_seconds)).map
        fun rest => .heading "Unit".toList :: rest := by
  have hcomment := line_comment (h.service_name.notMem (by decide : '\n' ∈ unitSyntax))
  have hunit : Line "[Unit]".toList [.heading "Unit".toList] := by decide
  have hdescription : '\n' ∉
      "Description".toList ++ '=' :: double '%' settings.description.toList :=
    newline_assignment (by decide) (Lib.mem_double.not.mpr h.description.newline)
  unfold unitText
  rw [readUnit_intercalate (toList_systemdLines ..) (List.cons_ne_nil _ _), readAll_cons hcomment,
    readAll_cons hunit, Option.map_map]
  · rfl
  · simp only [List.forall_mem_cons]
    exact ⟨hcomment.1, hunit.1, hdescription, newline_lines h.lines_tail⟩

theorem readUnit_of_ends (h : Accepted settings)
    (hends : continues settings.description.toList = false) :
    readUnit (unitText settings).toList = some (unitOf settings) := by
  have hdescription := line_setting (by decide : Bare "Description".toList) (by decide)
    h.description.newline hends
  rw [h.readUnit_unitText, readAll_lines (.cons hdescription h.lines_tail)]
  rfl

/-- The `After` line is read as a part of the description. -/
theorem readUnit_of_continues (h : Accepted settings)
    (hends : continues settings.description.toList = true) :
    readUnit (unitText settings).toList ≠ some (unitOf settings) := by
  obtain ⟨hafter, hblank, hservice⟩ : Line "After=network.target".toList
      [setting "After" "network.target"] ∧ Line "".toList [] ∧
      Line "[Service]".toList [.heading "Service".toList] := by decide
  have hline : continues ("Description".toList ++ '=' :: double '%' settings.description.toList) =
      true := by
    rw [continues_assignment]
    unfold continues at hends ⊢
    rwa [Lib.getLast?_double]
  have hne : double '%' settings.description.toList ≠ [] := by
    intro hnil
    rw [hnil] at hline
    revert hline
    decide
  have hjoined : ("Description".toList ++ '=' :: double '%' settings.description.toList).dropLast ++
      [' '] ++ "After=network.target".toList = "Description".toList ++
        '=' :: ((double '%' settings.description.toList).dropLast ++
          (' ' :: "After=network.target".toList)) := by
    rw [List.dropLast_append_of_ne_nil (List.cons_ne_nil _ _), List.dropLast_cons_of_ne_nil hne]
    simp only [List.append_assoc, List.cons_append, List.nil_append]
  intro hmeans
  rw [h.readUnit_unitText, tailLines, readAll_continued hline hafter.2.1, hjoined,
    readLine_assignment (by decide), if_neg (by decide), readAll_cons hblank,
    readAll_cons hservice] at hmeans
  obtain ⟨items, hitems, hmeans⟩ := Option.map_eq_some_iff.mp hmeans
  obtain ⟨first, hfirst, hitems⟩ := Option.bind_eq_some_iff.mp hitems
  obtain ⟨value, -, rfl⟩ := Option.map_eq_some_iff.mp hfirst
  obtain ⟨rest, hrest, rfl⟩ := Option.map_eq_some_iff.mp hitems
  obtain ⟨tail, htail, rfl⟩ := Option.map_eq_some_iff.mp hrest
  obtain ⟨last, -, rfl⟩ := Option.map_eq_some_iff.mp htail
  -- The third item is the heading of the next section.
  have hthird := congrArg (fun items => items[2]?) hmeans
  cases hthird

end Accepted

/-- **The rendered unit means its settings** if and only if the description does not end in a
backslash. -/
theorem means_iff (settings : SystemdSettings) (text : String)
    (h : render_systemd settings = .ok text) :
    Means text settings ↔ settings.description.toList.getLast? ≠ some '\\' := by
  obtain ⟨haccepted, rfl⟩ := render_systemd_ok h
  unfold Means
  constructor
  · intro hmeans hends
    exact haccepted.readUnit_of_continues (beq_iff_eq.mpr hends) hmeans
  · intro hends
    exact haccepted.readUnit_of_ends (beq_eq_false_iff_ne.mpr hends)

/-- A service with spaces, specifiers and dollars in its paths. -/
def catalog : SystemdSettings where
  service_name := "catalog"
  description := " Catalog \"100%\" "
  user := "catalog"
  group := "www-data"
  working_directory := "/opt/a %b $c/"
  config_path := "/etc/a\\ \"%b $c.cfg"

theorem means_iff_catalog :
    ∃ text, render_systemd catalog = .ok text ∧ Means text catalog := by
  obtain ⟨text, h⟩ := exists_ok (by decide : (render_systemd catalog).toOption.isSome = true)
  exact ⟨text, h, (means_iff catalog text h).mpr (by decide)⟩

/-- A description with a backslash at its end. -/
def trailing : SystemdSettings := { catalog with description := "Catalog\\" }

/-- **The description is not checked**: this one is accepted, and its unit has no `After`. -/
theorem trailing_not_means :
    ∃ text, render_systemd trailing = .ok text ∧ ¬ Means text trailing := by
  obtain ⟨text, h⟩ := exists_ok (by decide : (render_systemd trailing).toOption.isSome = true)
  obtain ⟨haccepted, rfl⟩ := render_systemd_ok h
  exact ⟨_, h, haccepted.readUnit_of_continues (by decide)⟩

end LclFastapi.Render
