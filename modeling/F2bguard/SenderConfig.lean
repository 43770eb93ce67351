/-
The sender's configuration and the enumeration of Fail2Ban's bans.

`SenderConfig.from_dict` checks a decoded configuration file; its checks are translated in
the order of the source. `urlsplit` and the `str` of a list or a dict come from the
standard library and are parameters. `enumerate_permanent_jails` asks Fail2Ban for each
configured jail and reads its answer line by line; the answers are the parameter `runner`.
-/
import F2bguard.Payloads

set_option autoImplicit false

namespace F2bguard.Sender

open F2bguard.PyText F2bguard.PyJson F2bguard.Ipaddress F2bguard.Claims

/-! ## `SenderConfig`

The order of the checks decides which error a file with several faults is reported with, so it is
kept. Not everything that can be wrong with a value is caught: the name of a jail and the port
raise a plain `ValueError`, and an integer that is no double an `OverflowError`. -/

/-- What `from_dict` raises. -/
inductive ConfigFailure
  | config_error (message : Text)
  /-- a `ValueError` that is not caught -/
  | value_error
  /-- `OverflowError: int too large to convert to float` -/
  | overflow_error
  deriving DecidableEq

def config_error {α : Type} (message : String) : Except ConfigFailure α :=
  .error (.config_error message.toList)

/-- `SplitResult.port` -/
inductive Port
  /-- reading it raises `ValueError` -/
  | invalid
  | absent
  | number (n : ℕ)
  deriving DecidableEq

structure SplitResult where
  scheme : Text
  hostname : Option Text
  username : Option Text
  password : Option Text
  fragment : Text
  query : Text
  port : Port
  path : Text
  deriving DecidableEq

/-- What `from_dict` takes from the standard library. -/
structure Library where
  /-- `none` for a `ValueError` -/
  urlsplit : Text → Option SplitResult
  /-- `str` of a list or a dict -/
  str_of_container : Json → Text
  floats : FloatText

/-- `str(value)`. It is applied to the name of a jail before its type was checked, so `true` is
read as the jail `True`. -/
def Library.str (lib : Library) : Json → Text
  | .null => "None".toList
  | .bool true => "True".toList
  | .bool false => "False".toList
  | .int n => dumps_int n
  | .float (.finite q) => lib.floats.repr q
  | .float (.inf negative) => if negative then "-inf".toList else "inf".toList
  | .float .nan => "nan".toList
  | .str s => s
  | .arr xs => lib.str_of_container (.arr xs)
  | .obj items => lib.str_of_container (.obj items)

/-- A jail that passed `__post_init__`. Only bans without an end are sent, so the ban time is −1.
-/
structure PermanentJail where
  name : Text
  bantime : ℤ
  valid : ValidJail name
  permanent : bantime = -1

/-- The configuration after all checks, with the endpoint as the base of the API. -/
structure SenderConfig where
  database : Text
  endpoint : Text
  ca : Text
  cert : Text
  key : Text
  permanent_jails : List PermanentJail
  fail2ban_client : Text
  poll_seconds : ℚ
  request_timeout : ℚ
  initial_backoff : ℚ
  max_backoff : ℚ

instance (jail : Text) : Decidable (ValidJail jail) :=
  decidable_of_iff (jail ≠ [] ∧ jail.length ≤ MAX_JAIL ∧ ∀ c ∈ jail, is_jail_char c = true)
    ⟨fun h => ⟨h.1, h.2.1, h.2.2⟩, fun h => ⟨h.nonempty, h.short, h.chars⟩⟩

/-- `PermanentJail(name, bantime)`: `_jail` raises a plain `ValueError`. -/
def permanent_jail (name : Text) (bantime : Json) : Except ConfigFailure PermanentJail :=
  if h : ValidJail name then
    match bantime with
    | .int n =>
        if hn : n = -1 then .ok ⟨name, n, h, hn⟩
        else .error (.config_error ("permanent jail '".toList ++ name
          ++ "' must have bantime -1".toList))
    | _ => .error (.config_error ("permanent jail '".toList ++ name
        ++ "' must have bantime -1".toList))
  else .error .value_error

/-- `_absolute_path`; `raw.get(name)` is `none` when it is missing. -/
def _absolute_path (value : Option Json) (field : String) : Except ConfigFailure Text :=
  match value with
  | some (.str ('/' :: rest)) => .ok ('/' :: rest)
  | _ => config_error (field ++ " must be an absolute path")

/-- `positive`. A missing field takes its default; an integer is converted to a double before its
sign is looked at; `true` is refused, and so are NaN and infinities. -/
def positive (raw : List (Text × Json)) (name : String) (default : ℚ) : Except ConfigFailure ℚ :=
  match get_item raw name.toList with
  | none => .ok default
  | some (.int n) =>
      match float_of_int n with
      | none => .error .overflow_error
      | some q => if 0 < n then .ok q else config_error (name ++ " must be positive")
  | some (.float (.finite q)) =>
      if 0 < q then .ok q else config_error (name ++ " must be positive")
  | some _ => config_error (name ++ " must be positive")

def known_fields : List Text :=
  ["database".toList, "endpoint".toList, "tls".toList, "permanent_jails".toList,
    "fail2ban_client".toList, "poll_seconds".toList, "request_timeout".toList,
    "initial_backoff".toList, "max_backoff".toList]

/-- `s.rstrip("/")` -/
def rstrip_slash (s : Text) : Text := s.rdropWhile (· = '/')

/-- The checks of `endpoint`, up to its port. An empty user name or password is as good as none.
-/
def split_endpoint (lib : Library) (raw : List (Text × Json)) :
    Except ConfigFailure (Text × SplitResult) :=
  match get_item raw "endpoint".toList with
  | some (.str endpoint) =>
      match lib.urlsplit endpoint with
      | none => config_error "endpoint is required"
      | some parsed =>
          if parsed.scheme ≠ "https".toList ∨ parsed.hostname.getD [] = [] ∨
              parsed.username.getD [] ≠ [] ∨ parsed.password.getD [] ≠ [] then
            config_error "endpoint must be an https URL with a hostname"
          else if parsed.fragment ≠ [] ∨ parsed.query ≠ [] then
            config_error "endpoint must not contain a query or fragment"
          else
            match parsed.port with
            | .invalid => .error .value_error
            | .absent => .ok (endpoint, parsed)
            | .number n =>
                if 1 ≤ n ∧ n ≤ 65535 then .ok (endpoint, parsed)
                else config_error "endpoint port is invalid"
  | _ => config_error "endpoint is required"

/-- The options that are refused by name, the first one that is there. All of them would turn the
verification of certificates off. At the top level they are unknown fields and were refused
before; in `tls` other unknown members pass. -/
def refuse_names (where_ : String) (names : List String) (raw : List (Text × Json)) :
    Except ConfigFailure Unit :=
  match names.find? (fun name => (get_item raw name.toList).isSome) with
  | some name => config_error (where_ ++ name ++ " is not supported")
  | none => .ok ()

/-- `tls.ca`, `tls.cert` and `tls.key` -/
def read_tls (raw : List (Text × Json)) : Except ConfigFailure (Text × Text × Text) :=
  match get_item raw "tls".toList with
  | some (.obj tls) => do
      let ca ← _absolute_path (get_item tls "ca".toList) "tls.ca"
      let cert ← _absolute_path (get_item tls "cert".toList) "tls.cert"
      let key ← _absolute_path (get_item tls "key".toList) "tls.key"
      refuse_names "tls." ["verify", "verify_tls", "insecure", "disable_tls", "check_hostname"] tls
      return (ca, cert, key)
  | _ => config_error "tls.ca, tls.cert and tls.key are required"

/-- One turn of the loop over `permanent_jails`. A member that is missing is found out by the
check of its value: the name is empty then, or the ban time is no −1. -/
def add_jail (lib : Library) (jails : List PermanentJail) (item : Json) :
    Except ConfigFailure (List PermanentJail) :=
  match item with
  | .obj item =>
      if item.any (fun kv => kv.1 ≠ "name".toList ∧ kv.1 ≠ "bantime".toList) then
        config_error "permanent_jails entries must be \x7bname, bantime\x7d"
      else do
        let name := lib.str ((get_item item "name".toList).getD (.str []))
        let entry ← permanent_jail name ((get_item item "bantime".toList).getD .null)
        if jails.any (fun jail => jail.name = entry.name) then
          config_error "permanent_jails contains a duplicate"
        else return jails ++ [entry]
  | _ => config_error "permanent_jails entries must be \x7bname, bantime\x7d"

/-- At least one jail has to be configured. -/
def read_jails (lib : Library) (raw : List (Text × Json)) :
    Except ConfigFailure (List PermanentJail) :=
  match get_item raw "permanent_jails".toList with
  | some (.arr (item :: items)) => (item :: items).foldlM (add_jail lib) []
  | _ => config_error "permanent_jails must contain configured bantime=-1 jails"

/-- The base of the API, from the endpoint and its path. A path is allowed only when it is `/v1`,
with or without slashes at its end. -/
def api_base (endpoint path : Text) : Except ConfigFailure Text :=
  if path = [] ∨ path = ['/'] then .ok (rstrip_slash endpoint ++ "/v1".toList)
  else if rstrip_slash path ≠ "/v1".toList then
    config_error "endpoint path must be /v1 (or omitted)"
  else .ok (rstrip_slash endpoint)

/-- `SenderConfig.from_dict`: the checks in the order of the source. The first that fails decides,
and the paths that `SenderConfig` itself checks come late. -/
def SenderConfig.from_dict (lib : Library) (raw : Json) : Except ConfigFailure SenderConfig :=
  match raw with
  | .obj raw => do
      if raw.any (fun kv => kv.1 ∉ known_fields) then config_error "unknown configuration field"
      let (endpoint, parsed) ← split_endpoint lib raw
      let (ca, cert, key) ← read_tls raw
      refuse_names "" ["verify", "verify_tls", "insecure", "insecure_tls", "disable_tls",
        "tls_verify"] raw
      let jails ← read_jails lib raw
      let command ← _absolute_path (some ((get_item raw "fail2ban_client".toList).getD
        (.str "/usr/bin/fail2ban-client".toList))) "fail2ban_client"
      let initial ← positive raw "initial_backoff" 1
      let maximum ← positive raw "max_backoff" 300
      if maximum < initial then config_error "max_backoff must be at least initial_backoff"
      let base ← api_base endpoint parsed.path
      let database ← _absolute_path (get_item raw "database".toList) "database"
      let poll_seconds ← positive raw "poll_seconds" 5
      let request_timeout ← positive raw "request_timeout" 10
      return {
        database, endpoint := base, ca, cert, key, permanent_jails := jails
        fail2ban_client := command, poll_seconds, request_timeout, initial_backoff := initial
        max_backoff := maximum }
  | _ => config_error "configuration must be an object"

/-! ## `enumerate_permanent_jails`

Fail2Ban prints one line for each ban, with its start, its length and its end. The pattern is
matched against the whole line, and one line that does not match refuses the whole answer: a list
read in part would release the bans of the other part. -/

/-- The characters of a `YYYY-MM-DD HH:MM:SS` at the start of a text, and what follows. The
pattern asks for digits and not for a date. -/
def scan_date (s : Text) : Option Text :=
  let shape := "dddd-dd-dd dd:dd:dd".toList
  if s.length < shape.length then none
  else if (shape.zip s).all (fun (p, c) => if p = 'd' then (decimal c).isSome else c = p) then
    some (s.drop shape.length)
  else none

/-- `\s+` followed by a character that is no white space: what follows. -/
def scan_spaces (s : Text) : Option Text :=
  if s.takeWhile is_space = [] then none else some (s.dropWhile is_space)

/-- `\s+\t`, when no white space follows. -/
def scan_spaces_tab (s : Text) : Option Text :=
  let spaces := s.takeWhile is_space
  if 2 ≤ spaces.length ∧ spaces.getLast? = some '\t' then some (s.dropWhile is_space) else none

def scan_char (c : Char) (s : Text) : Option Text := if s.head? = some c then some s.tail else none

/-- `-?\d+`, when no digit follows. -/
def scan_duration (s : Text) : Option (Text × Text) :=
  let sign := if s.head? = some '-' then ['-'] else []
  let digits := s.drop sign.length
  let run := digits.takeWhile (fun c => (decimal c).isSome)
  if run = [] then none
  else some (sign ++ run, digits.dropWhile (fun c => (decimal c).isSome))

/-- The sign and the digits of a duration. -/
def duration_digits (duration : Text) : Bool × Text :=
  if duration.head? = some '-' then (true, duration.tail) else (false, duration)

/-- The number a duration stands for. -/
def duration_value (duration : Text) : ℤ :=
  let (negative, digits) := duration_digits duration
  let value : ℤ := digits.foldl (fun n c => 10 * n + (decimal c).getD 0) 0
  if negative then -value else value

/-- `int(duration)`, `none` for the `ValueError` beyond `int_max_str_digits`. The pattern bounds
the number of digits by nothing. -/
def int_duration (duration : Text) : Option ℤ :=
  if int_max_str_digits < (duration_digits duration).2.length then none
  else some (duration_value duration)

/-- `_BAN_WITH_TIME.fullmatch(line)`: the groups `ip` and `duration`. No two neighbouring parts of
the pattern share a character, so each takes all it can. -/
def ban_with_time (line : Text) : Option (Text × Text) := do
  let ip := line.takeWhile (fun c => !is_space c)
  guard (ip ≠ [])
  let s ← scan_spaces_tab (line.dropWhile (fun c => !is_space c))
  let s ← scan_date s
  let s ← scan_spaces s
  let s ← scan_char '+' s
  let s ← scan_spaces s
  let (duration, s) ← scan_duration s
  let s ← scan_spaces s
  let s ← scan_char '=' s
  let s ← scan_spaces s
  let s ← scan_date s
  guard (s = [])
  return (ip, duration)

/-- `EnumerationError` -/
structure EnumerationError where
  message : Text
  deriving DecidableEq

/-- What `enumerate_permanent_jails` raises. -/
inductive EnumerationFailure
  | enumeration_error (error : EnumerationError)
  /-- the `ValueError` of `int(duration)`, which is not caught -/
  | value_error
  deriving DecidableEq

def enumeration_error {α : Type} (message : String) : Except EnumerationFailure α :=
  .error (.enumeration_error ⟨message.toList⟩)

/-- One turn of the loop over the lines. Bans with an end are read and left out. An exception of
`int` is not an `EnumerationError`; the conversion stands outside of the `try` statement. -/
def add_ban (result : List Text) (line : Text) : Except EnumerationFailure (List Text) :=
  match ban_with_time line with
  | none => enumeration_error "fail2ban returned an unparseable timed ban list"
  | some (ip, duration) =>
      match canonical_ip ip with
      | .error _ => enumeration_error "fail2ban returned an invalid ban IP"
      | .ok ip =>
          match int_duration duration with
          | none => .error .value_error
          | some duration => .ok (if duration = -1 then result ++ [ip] else result)

/-- An empty answer is an empty list. Repetitions are looked for after the loop, among the
permanent bans only. -/
def _extract_permanent_ips (output : Text) : Except EnumerationFailure (List Text) :=
  if strip output = [] then .ok []
  else do
    let result ← (splitlines output).foldlM add_ban []
    if ¬ result.Nodup then enumeration_error "fail2ban returned duplicate IPs"
    else return result

/-- `subprocess.CompletedProcess` -/
structure Completed where
  returncode : ℤ
  stdout : Text
  deriving DecidableEq

/-- One turn of the loop over the jails; `none` is an `OSError` or a `SubprocessError`. The output
counts only with status zero. -/
def enumerate_jail (completed : Option Completed) (jail : PermanentJail) :
    Except EnumerationFailure (List EnumeratedClaim) :=
  match completed with
  | none => enumeration_error "could not enumerate fail2ban bans"
  | some completed =>
      if completed.returncode ≠ 0 then enumeration_error "fail2ban returned an enumeration error"
      else (_extract_permanent_ips completed.stdout).map (fun ips =>
        ips.map (fun ip => { jail := jail.name, ip }))

/-- `runner` is asked for `get JAIL banip --with-time`. The first jail that fails ends the
enumeration, so a list is returned only when all jails were read. -/
def enumerate_permanent_jails (config : SenderConfig) (runner : Text → Option Completed) :
    Except EnumerationFailure (List EnumeratedClaim) :=
  (config.permanent_jails.mapM (fun jail => enumerate_jail (runner jail.name) jail)).map
    List.flatten

/-! ## What is enumerated

Everything a list holds was configured or printed by `canonical_ip`, which is what the sender's
store and the receiver rely on. -/

theorem add_ban_canonical {result after : List Text} {line : Text}
    (h : add_ban result line = .ok after) (hresult : ∀ ip ∈ result, CanonicalIP ip) :
    ∀ ip ∈ after, CanonicalIP ip := by
  unfold add_ban at h
  split at h
  · cases h
  · split at h
    · cases h
    · rename_i ip hip
      split at h
      · cases h
      · cases h
        split
        · intro x hx
          rcases List.mem_append.mp hx with hx | hx
          · exact hresult x hx
          · rw [List.mem_singleton.mp hx]
            exact canonical_ip_eq_ok hip
        · exact hresult

theorem extract_canonical {output : Text} {ips : List Text}
    (h : _extract_permanent_ips output = .ok ips) : ∀ ip ∈ ips, CanonicalIP ip := by
  have hloop : ∀ (lines : List Text) (result after : List Text),
      lines.foldlM add_ban result = .ok after → (∀ ip ∈ result, CanonicalIP ip) →
        ∀ ip ∈ after, CanonicalIP ip := by
    intro lines
    induction lines with
    | nil =>
      intro result after h hresult
      cases h
      exact hresult
    | cons line lines ih =>
      intro result after h hresult
      rw [List.foldlM_cons] at h
      obtain ⟨result', hline, h⟩ := Store.bind_eq_ok.mp h
      exact ih result' after h (add_ban_canonical hline hresult)
  unfold _extract_permanent_ips at h
  split at h
  · cases h
    simp
  · obtain ⟨result, hresult, h⟩ := Store.bind_eq_ok.mp h
    split at h
    · cases h
    · cases h
      exact hloop _ [] _ hresult (by simp)

/-- A claim `enumerate_permanent_jails` can return. -/
structure Enumerated (config : SenderConfig) (claim : EnumeratedClaim) : Prop where
  jail : ∃ jail ∈ config.permanent_jails, claim.jail = jail.name
  ip : CanonicalIP claim.ip
  ban_id : claim.ban_id = none

theorem enumerate_jail_spec {config : SenderConfig} {completed : Option Completed}
    {jail : PermanentJail} {claims : List EnumeratedClaim} (hjail : jail ∈ config.permanent_jails)
    (h : enumerate_jail completed jail = .ok claims) : ∀ c ∈ claims, Enumerated config c := by
  unfold enumerate_jail at h
  split at h
  · cases h
  · split at h
    · cases h
    · obtain ⟨ips, hips, rfl⟩ := Store.map_eq_ok.mp h
      intro c hc
      obtain ⟨ip, hip, rfl⟩ := List.mem_map.mp hc
      exact ⟨⟨jail, hjail, rfl⟩, extract_canonical hips ip hip, rfl⟩

theorem enumerate_spec {config : SenderConfig} {runner : Text → Option Completed}
    {claims : List EnumeratedClaim} (h : enumerate_permanent_jails config runner = .ok claims) :
    ∀ c ∈ claims, Enumerated config c := by
  have hloop : ∀ (jails : List PermanentJail) (lists : List (List EnumeratedClaim)),
      (∀ jail ∈ jails, jail ∈ config.permanent_jails) →
      jails.mapM (fun jail => enumerate_jail (runner jail.name) jail) = .ok lists →
        ∀ c ∈ lists.flatten, Enumerated config c := by
    intro jails
    induction jails with
    | nil =>
      intro lists _ h
      cases h
      simp
    | cons jail jails ih =>
      intro lists hjails h
      rw [List.mapM_cons] at h
      obtain ⟨claims, hclaims, h⟩ := Store.bind_eq_ok.mp h
      obtain ⟨rest, hrest, h⟩ := Store.bind_eq_ok.mp h
      cases h
      intro c hc
      rcases List.mem_append.mp hc with hc | hc
      · exact enumerate_jail_spec (hjails jail List.mem_cons_self) hclaims c hc
      · exact ih rest (fun j hj => hjails j (List.mem_cons_of_mem _ hj)) hrest c hc
  obtain ⟨lists, hlists, rfl⟩ := Store.map_eq_ok.mp h
  exact hloop _ lists (fun _ h => h) hlists

end F2bguard.Sender
