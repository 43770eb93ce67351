/-
What the pages save, the receiver reads.

The package renders the saved configuration as `config.json` and the receiver parses it. Of a
configuration that the pages saved with `enabled` set, the receiver takes every entry as it
was saved, with three exceptions (`saved_runtime_iff`). The page refuses the unspecified address
in its two shortest spellings only, while the receiver refuses it in every spelling; the page
lets two clients share a fingerprint, while the receiver does not; and a number whose field
is posted empty is checked as its default but saved as 0, which the receiver takes for none
of the five numbers.
-/
import F2bguard.PageRuns

set_option autoImplicit false

namespace F2bguard.Pages

open F2bguard.PyText F2bguard.PyJson F2bguard.Ipaddress F2bguard.Alias F2bguard.ConfigStore
open F2bguard.Runtime F2bguard.ReceiverConfig
open F2bguard.Php hiding is_space

/-! ## The saved configuration and the parsed one

Both are compared member by member: what the receiver holds is to be what the pages saved, with
the address and the fingerprints up to their spelling. -/

def client_id (php : Library) (client : Value) : Text :=
  to_text php (php.array_get_path client [name "id"] (.str []))

def client_fingerprints (php : Library) (client : Value) : List Text :=
  matching (fun _ => true) (to_array (php.array_get_path client [name "cert_sha256"] (.arr [])))

def client_jails (php : Library) (client : Value) : List Text :=
  matching (fun _ => true) (to_array (php.array_get_path client [name "allowed_jails"] (.arr [])))

/-- The client the receiver should make of a saved one. -/
def client_config (php : Library) (client : Value) : ClientConfig :=
  ⟨client_id php client, (client_fingerprints php client).map strtolower,
    (client_jails php client).toFinset⟩

/-- A limit of the saved configuration. -/
def saved_limit (php : Library) (cfg : Items) (key : String) : Value :=
  php.array_get_path (.arr cfg) [name "limits", name key] .null

/-- The parsed configuration is enabled and says what the saved one does. -/
structure Agrees (site : Site) (cfg : Items) (config : Config) : Prop where
  enabled : config.enabled = true
  listen : ∃ a, site.inet.pton (to_text site.php (entry cfg "listen")) = some a ∧
    ip_address config.listen = some a
  port : entry cfg "port" = .int config.port
  body_bytes : saved_limit site.php cfg "body_bytes" = .int config.limits.body_bytes
  events_per_request : saved_limit site.php cfg "events_per_request" = .int config.limits.events_per_request
  claims_per_client : saved_limit site.php cfg "claims_per_client" = .int config.limits.claims_per_client
  requests_per_minute : saved_limit site.php cfg "requests_per_minute" = .int config.limits.requests_per_minute
  history_days : entry cfg "history_days" = .int config.history_days
  clients : config.clients = (page_clients cfg).map (client_config site.php)

/-- The address to listen on is not the unspecified one, however it is spelled. -/
def Specified (site : Site) (cfg : Items) : Prop :=
  ∀ a, site.inet.pton (to_text site.php (entry cfg "listen")) = some a → a.is_unspecified = false

/-- No fingerprint is in two clients. -/
def Unshared (php : Library) (cfg : Items) : Prop :=
  (page_clients cfg).Pairwise (fun client other =>
    ∀ f ∈ (client_fingerprints php client).map strtolower,
      f ∉ (client_fingerprints php other).map strtolower)

def is_zero : Value → Bool
  | .int n => n = 0
  | _ => false

/-- No number was saved from an empty field: neither a limit nor the retention is 0. -/
def Filled (cfg : Items) : Prop :=
  (∀ spec ∈ limit_specs, is_zero (entry (entry cfg "limits").items spec.key) = false) ∧
    is_zero (entry cfg "history_days") = false

instance (cfg : Items) : Decidable (Filled cfg) := inferInstanceAs (Decidable (_ ∧ _))

/-! ## The rendered file

The runtime array of a sound configuration, written down entry by entry, and the JSON object it is
encoded as. -/

def limit_items (body_bytes events_per_request claims_per_client requests_per_minute : ℤ) : Items := [
  (name "body_bytes", .int body_bytes), (name "events_per_request", .int events_per_request),
  (name "claims_per_client", .int claims_per_client),
  (name "requests_per_minute", .int requests_per_minute)]

/-- The runtime array, entry by entry. -/
def runtime_items (enabled : Bool) (listen : Text) (port : ℤ) (clients : List Value) (limits : Items)
    (history_days : ℤ) : Items := [
  (name "enabled", .bool enabled), (name "listen", .str listen), (name "port", .int port),
  (name "tls", .arr runtime_tls), (name "clients", of_list clients),
  (name "database", .str "/var/db/f2bguard/state.sqlite".toList),
  (name "whitelist_file", .str "/usr/local/etc/f2bguard/whitelist.txt".toList),
  (name "enforcement_socket", .str "/var/run/f2bguard/pf.sock".toList),
  (name "limits", .arr limits), (name "history_days", .int history_days)]

theorem runtime_config_items (php : Library) (cfg : Items) :
    runtime_config php cfg = runtime_items
      (normalize_enabled (php.array_get_path (.arr cfg) [name "enabled"] (.bool false)))
      (to_text php (entry cfg "listen")) (to_int php (entry cfg "port"))
      (runtime_clients php cfg) (runtime_limits php cfg)
      (to_int php (php.array_get_path (.arr cfg) [name "history_days"] (.int 90))) := rfl

theorem runtime_limits_items (php : Library) (cfg : Items) :
    runtime_limits php cfg = limit_items
      (to_int php (php.array_get_path (.arr cfg) [name "limits", name "body_bytes"] (.int 1048576)))
      (to_int php (php.array_get_path (.arr cfg) [name "limits", name "events_per_request"] (.int 1000)))
      (to_int php (php.array_get_path (.arr cfg) [name "limits", name "claims_per_client"] (.int 10000)))
      (to_int php (php.array_get_path (.arr cfg) [name "limits", name "requests_per_minute"]
        (.int 120))) := rfl

def tls_json : Json := .obj [
  ("cert".toList, .str "/usr/local/etc/f2bguard/tls/server.crt".toList),
  ("key".toList, .str "/usr/local/etc/f2bguard/tls/server.key".toList),
  ("ca".toList, .str "/usr/local/etc/f2bguard/tls/ca.crt".toList)]

def limits_json (body_bytes events_per_request claims_per_client requests_per_minute : ℤ) : Json := .obj [
  ("body_bytes".toList, .int body_bytes), ("events_per_request".toList, .int events_per_request),
  ("claims_per_client".toList, .int claims_per_client),
  ("requests_per_minute".toList, .int requests_per_minute)]

def runtime_members (enabled : Bool) (listen : Text) (port : ℤ) (clients : List Json) (limits : Json)
    (history_days : ℤ) : List (Text × Json) := [
  ("enabled".toList, .bool enabled), ("listen".toList, .str listen), ("port".toList, .int port),
  ("tls".toList, tls_json), ("clients".toList, .arr clients),
  ("database".toList, .str "/var/db/f2bguard/state.sqlite".toList),
  ("whitelist_file".toList, .str "/usr/local/etc/f2bguard/whitelist.txt".toList),
  ("enforcement_socket".toList, .str "/var/run/f2bguard/pf.sock".toList),
  ("limits".toList, limits), ("history_days".toList, .int history_days)]

theorem to_json_record (key : String) (v : Value) (items : Items) :
    to_json (.arr ((name key, v) :: items)) =
      .obj ((key.toList, to_json v) :: to_json_members items) := by
  rw [to_json, name, is_list_record, if_neg Bool.false_ne_true, to_json_members]
  rfl

theorem to_json_member (key : String) (v : Value) (items : Items) :
    to_json_members ((name key, v) :: items) =
      (key.toList, to_json v) :: to_json_members items := by
  rw [to_json_members]
  rfl

theorem to_json_tls : to_json (.arr runtime_tls) = tls_json := by
  rw [runtime_tls, to_json_record, to_json_member, to_json_member, to_json_members, to_json,
    to_json, to_json]
  rfl

theorem to_json_limits (a b c d : ℤ) : to_json (.arr (limit_items a b c d)) = limits_json a b c d := by
  rw [limit_items, to_json_record, to_json_member, to_json_member, to_json_member, to_json_members,
    to_json, to_json, to_json, to_json]
  rfl

theorem to_json_runtime (enabled : Bool) (listen : Text) (port : ℤ) (clients : List Value)
    (limits : Items) (history_days : ℤ) :
    to_json (.arr (runtime_items enabled listen port clients limits history_days)) =
      .obj (runtime_members enabled listen port (clients.map to_json) (to_json (.arr limits))
        history_days) := by
  have hstr : ∀ s : Text, to_json (.str s) = .str s := fun s => by rw [to_json]
  have hint : ∀ n : ℤ, to_json (.int n) = .int n := fun n => by rw [to_json]
  have hbool : ∀ b : Bool, to_json (.bool b) = .bool b := fun b => by rw [to_json]
  rw [runtime_items, to_json_record]
  simp only [to_json_members, to_json_tls, to_json_of_list, hstr, hint, hbool]
  rfl

/-! ## Parsing it

Constants pass, ranges of the pages lie within those of the receiver, and what can fail are the
three things that the pages do not check. -/

theorem get_or_eq {obj : List (Text × Json)} {key : String} {default v : Json}
    (h : get_item obj key.toList = some v) : get_or obj key default = v := by
  rw [get_or, h]
  rfl

theorem integer_ok {name : String} {n minimum maximum : ℤ} (h : minimum ≤ n ∧ n ≤ maximum) :
    _integer (.int n) name minimum maximum = .ok n := by
  rw [_integer, if_pos h]

theorem integer_error {name : String} {n minimum maximum : ℤ} (h : ¬ (minimum ≤ n ∧ n ≤ maximum)) :
    _integer (.int n) name minimum maximum = .error (name.toList ++ " must be between ".toList ++
      dumps_int minimum ++ " and ".toList ++ dumps_int maximum) := by
  rw [_integer, if_neg h]

theorem reject_unknown_ok {value : List (Text × Json)} {allowed : List String} {name : Text}
    (h : ∀ member ∈ value, member.1 ∈ allowed.map String.toList) :
    _reject_unknown value allowed name = .ok () := by
  rw [_reject_unknown, if_neg]
  have hnone : (value.map Prod.fst).filter (fun key => key ∉ allowed.map String.toList) = [] := by
    rw [List.filter_eq_nil_iff]
    intro key hkey
    obtain ⟨member, hmember, rfl⟩ := List.mem_map.mp hkey
    rw [decide_eq_true_eq, not_not]
    exact h member hmember
  rw [unknown_fields, hnone, List.mergeSort_nil, ne_eq, not_not]

def rendered_tls : TLSConfig where
  cert := "/usr/local/etc/f2bguard/tls/server.crt".toList
  key := "/usr/local/etc/f2bguard/tls/server.key".toList
  ca := "/usr/local/etc/f2bguard/tls/ca.crt".toList

theorem rendered_tls_given :
    ¬ (true = true ∧ (rendered_tls.cert = [] ∨ rendered_tls.key = [] ∨ rendered_tls.ca = [])) := by
  decide

theorem parse_tls_rendered : parse_tls tls_json = .ok rendered_tls := by
  unfold parse_tls tls_json _expect_dict
  dsimp only [bind, Except.bind]
  rw [reject_unknown_ok (by decide)]
  rfl

/-- The limits are taken when each is in the range of the receiver. -/
theorem parse_limits_iff {a b c d : ℤ} {parsed : Limits} :
    parse_limits (limits_json a b c d) = .ok parsed ↔
      (1024 ≤ a ∧ a ≤ 4194304) ∧ (1 ≤ b ∧ b ≤ 10000) ∧ (1 ≤ c ∧ c ≤ 1000000) ∧
        (1 ≤ d ∧ d ≤ 100000) ∧ parsed = ⟨a, b, c, d⟩ := by
  have hget : ∀ key default n, (key, n) ∈ [("body_bytes", a), ("events_per_request", b),
      ("claims_per_client", c), ("requests_per_minute", d)] →
      get_or [("body_bytes".toList, .int a), ("events_per_request".toList, .int b),
        ("claims_per_client".toList, .int c), ("requests_per_minute".toList, .int d)] key default =
          .int n := by
    intro key default n hmem
    simp only [List.mem_cons, List.not_mem_nil, or_false, Prod.mk.injEq] at hmem
    rcases hmem with ⟨rfl, rfl⟩ | ⟨rfl, rfl⟩ | ⟨rfl, rfl⟩ | ⟨rfl, rfl⟩ <;> rfl
  unfold parse_limits limits_json _expect_dict
  dsimp only [bind, Except.bind]
  rw [reject_unknown_ok (by simp)]
  dsimp only
  rw [hget "body_bytes" _ a (by simp), hget "events_per_request" _ b (by simp),
    hget "claims_per_client" _ c (by simp), hget "requests_per_minute" _ d (by simp)]
  -- the first of the four that is out of its range decides
  by_cases ha : 1024 ≤ a ∧ a ≤ 4194304
  · rw [integer_ok ha, and_iff_right ha]
    by_cases hb : 1 ≤ b ∧ b ≤ 10000
    · rw [integer_ok hb, and_iff_right hb]
      by_cases hc : 1 ≤ c ∧ c ≤ 1000000
      · rw [integer_ok hc, and_iff_right hc]
        by_cases hd : 1 ≤ d ∧ d ≤ 100000
        · rw [integer_ok hd, and_iff_right hd]
          dsimp only
          rw [Except.ok.injEq]
          exact eq_comm
        · rw [integer_error hd]
          exact iff_of_false (fun h => (by cases h)) (fun h => hd h.1)
      · rw [integer_error hc]
        exact iff_of_false (fun h => (by cases h)) (fun h => hc h.1)
    · rw [integer_error hb]
      exact iff_of_false (fun h => (by cases h)) (fun h => hb h.1)
  · rw [integer_error ha]
    exact iff_of_false (fun h => (by cases h)) (fun h => ha h.1)

/-- The configuration that a rendered file stands for. -/
def rendered_config (listen : Text) (port : ℤ) (clients : List ClientFields) (limits : Limits)
    (history_days : ℤ) : Config where
  enabled := true
  listen := listen
  port := port
  tls := rendered_tls
  clients := clients.map ClientFields.config
  database := "/var/db/f2bguard/state.sqlite".toList
  whitelist_file := "/usr/local/etc/f2bguard/whitelist.txt".toList
  enforcement_socket := "/var/run/f2bguard/pf.sock".toList
  limits := limits
  history_days := history_days

/-- A rendered file is taken when its address is specified, its clients differ and its numbers are in
their ranges. -/
theorem parse_rendered_iff {listen : Text} {a : IPAddress} {port history_days : ℤ}
    {clients : List ClientFields} {limits : Json} {config : Config}
    (hlisten : ip_address listen = some a) (hport : 1 ≤ port ∧ port ≤ 65535)
    (hclients : ∀ client ∈ clients, client.Parsable) :
    parse_config (.obj (runtime_members true listen port (clients.map ClientFields.json) limits
        history_days)) = .ok config ↔
      a.is_unspecified = false ∧ (clients.map ClientFields.id).Nodup ∧
        (clients.flatMap (fun client => client.cert_sha256.map lower)).Nodup ∧
        ∃ parsed, parse_limits limits = .ok parsed ∧ (1 ≤ history_days ∧ history_days ≤ 3650) ∧
          config = rendered_config (a.compressed (scope_id listen)) port clients parsed
            history_days := by
  -- the paths are constants of the package
  have hpath : ∀ path ∈ ["/var/db/f2bguard/state.sqlite", "/usr/local/etc/f2bguard/whitelist.txt",
      "/var/run/f2bguard/pf.sock"], ∀ name : String, _path (.str path.toList) name = .ok path.toList := by
    intro path hmem name
    simp only [List.mem_cons, List.not_mem_nil, or_false] at hmem
    rcases hmem with rfl | rfl | rfl <;> rfl
  have hparse := @parse_clients_iff clients hclients 0 [] []
  -- the members are read in the order of the source
  unfold parse_config _expect_dict
  dsimp only [bind, Except.bind]
  rw [reject_unknown_ok (by simp [runtime_members, config_fields])]
  dsimp only
  rw [get_or_eq (v := .bool true) rfl, get_or_eq (v := .str listen) rfl,
    get_or_eq (v := .int port) rfl, get_or_eq (v := tls_json) rfl,
    get_or_eq (v := .arr (clients.map ClientFields.json)) rfl, get_or_eq (v := limits) rfl,
    get_or_eq (v := .str "/var/db/f2bguard/state.sqlite".toList) rfl,
    get_or_eq (v := .str "/usr/local/etc/f2bguard/whitelist.txt".toList) rfl,
    get_or_eq (v := .str "/var/run/f2bguard/pf.sock".toList) rfl,
    get_or_eq (v := .int history_days) rfl]
  dsimp only
  unfold parse_listen
  dsimp only
  rw [hlisten]
  dsimp only
  cases ha : a.is_unspecified with
  | true =>
    rw [if_pos rfl]
    exact iff_of_false (fun h => (by cases h)) (fun h => Bool.false_ne_true h.1.symm)
  | false =>
    rw [if_neg Bool.false_ne_true, integer_ok hport, parse_tls_rendered, hpath _ (by simp),
      hpath _ (by simp), hpath _ (by simp), and_iff_right rfl]
    dsimp only
    rw [if_neg rendered_tls_given]
    -- the address is specified, so the clients decide
    cases hresult : parse_clients 0 (clients.map ClientFields.json) [] [] with
    | error e =>
      refine iff_of_false (fun h => (by cases h)) ?_
      rintro ⟨hids, hfps, -⟩
      have hok := (hparse List.nodup_nil List.nodup_nil).mpr ⟨hids, hfps, rfl⟩
      rw [hresult] at hok
      cases hok
    | ok parsed =>
      obtain ⟨hids, hfps, rfl⟩ := (hparse List.nodup_nil List.nodup_nil).mp hresult
      rw [List.nil_append] at hids hfps
      rw [and_iff_right hids, and_iff_right hfps]
      dsimp only
      -- and last the numbers
      cases hparsed : parse_limits limits with
      | error e =>
        refine iff_of_false (fun h => (by cases h)) ?_
        rintro ⟨parsed, h, -⟩
        cases h
      | ok parsed =>
        dsimp only
        by_cases hdays : 1 ≤ history_days ∧ history_days ≤ 3650
        · rw [integer_ok hdays, Except.ok.injEq]
          exact ⟨fun h => ⟨parsed, rfl, hdays, h.symm⟩, fun h => by
            obtain ⟨parsed', hparsed', -, h⟩ := h
            cases hparsed'
            exact h.symm⟩
        · rw [integer_error hdays]
          refine iff_of_false (fun h => (by cases h)) ?_
          rintro ⟨parsed', -, h, -⟩
          exact hdays h

/-! ## The agreement

From the list of records to the conditions on the saved configuration, and back. -/

theorem fingerprints_of_record (php : Library) (r : ClientRecord) :
    (client_fingerprints php r.value).map strtolower = r.cert_sha256 := by
  have h : client_fingerprints php r.value = r.cert_sha256 := by
    rw [client_fingerprints, r.get_cert_sha256]
    exact @ClientRecord.matching_all (fun _ => true) _ (fun _ _ => rfl)
  rw [h, r.lowered]

theorem config_of_record (php : Library) (r : ClientRecord) :
    client_config php r.value = r.toClientFields.config := by
  have hjails : client_jails php r.value = r.allowed_jails := by
    rw [client_jails, r.get_allowed_jails]
    exact @ClientRecord.matching_all (fun _ => true) _ (fun _ _ => rfl)
  have hid : client_id php r.value = r.id := by
    rw [client_id, r.get_id]
    rfl
  rw [client_config, fingerprints_of_record, hjails, hid, ClientFields.config,
    show r.cert_sha256.map lower = r.cert_sha256 from r.lowered]

/-- In a list of records, no repetition over all means none between two of them. -/
theorem unshared_iff {php : Library} {cfg : Items} {records : List ClientRecord}
    (h : page_clients cfg = records.map ClientRecord.value) :
    Unshared php cfg ↔ ((records.map ClientRecord.toClientFields).flatMap
      (fun client => client.cert_sha256.map lower)).Nodup := by
  have hlower : (records.map ClientRecord.toClientFields).flatMap
      (fun client => client.cert_sha256.map lower) = records.flatMap (fun r => r.cert_sha256) := by
    rw [List.flatMap_map]
    congr 1
    funext r
    exact r.lowered
  rw [hlower, List.nodup_flatMap, and_iff_right (fun r _ => r.distinct_fingerprints), Unshared, h,
    List.pairwise_map]
  simp only [fingerprints_of_record]
  rfl

/-- The ids that differ in more than case differ. -/
theorem distinct_ids {records : List ClientRecord}
    (h : (records.map (fun r => strtolower r.id)).Nodup) :
    ((records.map ClientRecord.toClientFields).map ClientFields.id).Nodup := by
  rw [show (fun r : ClientRecord => strtolower r.id) = strtolower ∘ (fun r => r.id) from rfl,
    ← List.map_map] at h
  rw [List.map_map]
  exact List.Nodup.of_map strtolower h

theorem saved_limit_eq (php : Library) {cfg limits : Items}
    (hget : get cfg (name "limits") = some (.arr limits)) {key : String} {n : ℤ}
    (hn : get limits (name key) = some (.int n)) (default : Value) :
    php.array_get_path (.arr cfg) [name "limits", name key] default = .int n := by
  refine php.get_found ?_ (fun h => (by cases h)) default
  rw [value_at, hget, Option.bind_some, value_at, hn, Option.bind_some, value_at]

/-- **What the pages save is what the receiver runs with.** Take any configuration that saves of the
pages lead to, in any number and order, from a firewall without the package; other pages of pfSense
may change the rest in between. With `enabled` set, the receiver takes what is rendered from it and
has every entry as it was saved, exactly when the address is specified, no two clients share a
fingerprint, and no number was saved from an empty field. -/
theorem saved_runtime_iff (site : Site) {root : Value} (hreachable : Reachable site root)
    (henabled : entry (get_config site.php root) "enabled" = .bool true) :
    (∃ config, parse_config (to_json (.arr
        (runtime_config site.php (get_config site.php root)))) = .ok config ∧
      Agrees site (get_config site.php root) config) ↔
    Specified site (get_config site.php root) ∧ Unshared site.php (get_config site.php root) ∧
      Filled (get_config site.php root) := by
  obtain ⟨hsound, -⟩ := reachable_sound hreachable
  have hholds := get_config_holds site.php root (merged_distinct site.php root)
  generalize get_config site.php root = cfg at hsound hholds henabled ⊢
  -- `enabled` may come from the defaults or from the stored configuration
  have hflag : get cfg (name "enabled") = some (.bool true) := by
    rw [entry, hholds.enabled] at henabled
    rw [hholds.enabled, ← henabled]
    rfl
  obtain ⟨⟨listen, hlisten, hparses⟩, ⟨port, hport, hport_range⟩, ⟨limits, hlimits, -, hranges⟩,
    ⟨days, hdays, hdays_range⟩, ⟨records, hrecords, hids⟩⟩ := hsound
  obtain ⟨a, ha⟩ := hparses hflag
  have hclients := page_clients_eq hrecords
  -- the four limits
  rw [limit_specs, List.forall_mem_cons, List.forall_mem_cons, List.forall_mem_cons,
    List.forall_mem_singleton] at hranges
  obtain ⟨⟨body, hbody, hbody_range⟩, ⟨events, hevents, hevents_range⟩,
    ⟨claims, hclaims, hclaims_range⟩, ⟨requests, hrequests, hrequests_range⟩⟩ := hranges
  dsimp only at hbody hbody_range hevents hevents_range hclaims hclaims_range hrequests hrequests_range
  have hlisten_entry : to_text site.php (entry cfg "listen") = listen := by
    rw [entry, hlisten]
    rfl
  have hport_entry : entry cfg "port" = .int port := by
    rw [entry, hport]
    rfl
  have hdays_entry : ∀ default,
      site.php.array_get_path (.arr cfg) [name "history_days"] default = .int days :=
    site.php.get_entry hdays (fun h => (by cases h))
  have hlimit := fun {key : String} {n : ℤ} => @saved_limit_eq site.php cfg limits hlimits key n
  -- the file has one member for each entry
  have hrendered : to_json (.arr (runtime_config site.php cfg)) = .obj (runtime_members true listen
      port ((records.map ClientRecord.toClientFields).map ClientFields.json)
      (limits_json body events claims requests) days) := by
    have hruntime : runtime_clients site.php cfg = records.map ClientRecord.value := by
      rw [runtime_clients, site.php.get_entry hrecords (fun h => (by cases h)),
        validate_runtime_records]
    have hjson : (records.map ClientRecord.value).map to_json =
        (records.map ClientRecord.toClientFields).map ClientFields.json := by
      rw [List.map_map, List.map_map]
      exact List.map_congr_left (fun r _ => r.json)
    have hon : normalize_enabled
        (site.php.array_get_path (.arr cfg) [name "enabled"] (.bool false)) = true := by
      rw [site.php.get_entry hflag (fun h => (by cases h))]
      rfl
    rw [runtime_config_items, runtime_limits_items, hlimit hbody, hlimit hevents, hlimit hclaims,
      hlimit hrequests, hdays_entry, hport_entry, hlisten_entry, hruntime, hon, to_json_runtime, hjson]
    simp only [to_int]
    rw [to_json_limits]
  -- what the page accepted as an address is one for the receiver too
  have hspecified : Specified site cfg ↔ a.is_unspecified = false := by
    rw [Specified, hlisten_entry, ha]
    exact ⟨fun h => h a rfl, fun h b hb => Option.some.inj hb ▸ h⟩
  have hfilled : Filled cfg ↔ (body ≠ 0 ∧ events ≠ 0 ∧ claims ≠ 0 ∧ requests ≠ 0) ∧ days ≠ 0 := by
    have hitems : (entry cfg "limits").items = limits := by
      rw [entry, hlimits]
      rfl
    have hentry : ∀ {items : Items} {key : String} {n : ℤ}, get items (name key) = some (.int n) →
        (is_zero (entry items key) = false ↔ n ≠ 0) := by
      intro items key n hget
      rw [entry, hget, Option.getD_some, is_zero, decide_eq_false_iff_not]
    rw [Filled, limit_specs, List.forall_mem_cons, List.forall_mem_cons, List.forall_mem_cons,
      List.forall_mem_singleton, hitems, hentry hbody, hentry hevents, hentry hclaims,
      hentry hrequests, hentry hdays]
  have hparsable : ∀ client ∈ records.map ClientRecord.toClientFields, client.Parsable := by
    intro client hclient
    obtain ⟨r, -, rfl⟩ := List.mem_map.mp hclient
    exact r.parsable
  have hparse := fun config => @parse_rendered_iff listen a port days
    (records.map ClientRecord.toClientFields) (limits_json body events claims requests) config
    (site.pton_parsed ha) ⟨by omega, hport_range.2⟩ hparsable
  rw [hrendered, hspecified, unshared_iff hclients, hfilled]
  constructor
  · rintro ⟨config, hconfig, -⟩
    obtain ⟨hunspecified, -, hdistinct, parsed, hparsed, hdays', -⟩ := (hparse config).mp hconfig
    obtain ⟨hbody', hevents', hclaims', hrequests', -⟩ := parse_limits_iff.mp hparsed
    exact ⟨hunspecified, hdistinct, by omega⟩
  · rintro ⟨hunspecified, hdistinct, ⟨hbody', hevents', hclaims', hrequests'⟩, hdays'⟩
    have hparsed := parse_limits_iff.mpr ⟨hbody_range.resolve_left hbody',
      hevents_range.resolve_left hevents',
      ⟨(hclaims_range.resolve_left hclaims').1, by omega⟩, hrequests_range.resolve_left hrequests', rfl⟩
    refine ⟨_, (hparse _).mpr ⟨hunspecified, distinct_ids hids, hdistinct, _, hparsed,
      hdays_range.resolve_left hdays', rfl⟩, ?_⟩
    exact {
      enabled := rfl
      listen := ⟨a, by rw [hlisten_entry, ha], ip_address_compressed (site.pton_parsed ha)⟩
      port := hport_entry
      body_bytes := hlimit hbody _
      events_per_request := hlimit hevents _
      claims_per_client := hlimit hclaims _
      requests_per_minute := hlimit hrequests _
      history_days := by
        rw [entry, hdays]
        rfl
      clients := by
        rw [hclients, List.map_map, rendered_config, List.map_map]
        exact (List.map_congr_left (fun r _ => config_of_record site.php r)).symm }

/-! A firewall whose general page and clients page are filled in. -/

def sample_site : Site where
  inet := sample_inet
  php := sample_library
  pton_parsed := fun h => h
  get_interfaces := fun _ => ["wan".toList]
  natural_sort := fun jails => jails

/-- A certificate and a CA, and no package. -/
def bare_firewall : Value := .arr [
  (name "cert", .arr [(.int 0, .arr [(name "refid", .str "c1".toList),
    (name "crt", .str "Y3J0".toList), (name "prv", .str "a2V5".toList)])]),
  (name "ca", .arr [(.int 0, .arr [(name "refid", .str "c2".toList),
    (name "crt", .str "Y2E=".toList)])])]

def general_post : Items := [
  (name "enabled", .str "yes".toList), (name "listen", .str "192.0.2.1".toList),
  (name "port", .str "9443".toList), (name "tls_cert_ref", .str "c1".toList),
  (name "tls_ca_ref", .str "c2".toList),
  (name "wan_interfaces", .arr [(.int 0, .str "wan".toList)])]

/-- A client with the fingerprint aa…a. -/
def client_post (id : String) : Items := [
  (name "client_id", .str id.toList), (name "cert_sha256", .str (List.replicate 64 'A')),
  (name "allowed_jails", .str "sshd, recidive".toList)]

def after_page (root : Value) (request : Request) : Value :=
  (page sample_site root request).getD .null

def configured : Value := after_page bare_firewall (.save_general general_post)

def one_client : Value := after_page configured (.save_client (client_post "web1"))

def two_clients : Value := after_page one_client (.save_client (client_post "web2"))

theorem reachable_after {root : Value} {request : Request} (h : Reachable sample_site root)
    (hpage : (page sample_site root request).isSome = true) :
    Reachable sample_site (after_page root request) := by
  obtain ⟨root', hroot'⟩ := Option.isSome_iff_exists.mp hpage
  refine h.page request ?_
  rw [after_page, hroot']
  rfl

theorem bare_firewall_unblocked : Unblocked bare_firewall config_0_path :=
  fun value h => (by cases h)

theorem one_client_reachable : Reachable sample_site one_client :=
  reachable_after (reachable_after (.fresh rfl bare_firewall_unblocked) (by decide +kernel))
    (by decide +kernel)

theorem two_clients_reachable : Reachable sample_site two_clients :=
  reachable_after one_client_reachable (by decide +kernel)

theorem enabled_of_normalized {php : Library} {root : Value}
    (h : normalize_enabled (php.array_get_path (.arr (merged php root)) [name "enabled"] (.bool false)) =
      true) :
    entry (get_config php root) "enabled" = .bool true := by
  rw [entry, (get_config_holds php root (merged_distinct php root)).enabled, h]
  rfl

theorem saved_runtime_iff_sample :
    ∃ config, parse_config (to_json (.arr (runtime_config sample_site.php
        (get_config sample_site.php one_client)))) = .ok config ∧
      Agrees sample_site (get_config sample_site.php one_client) config := by
  have hlisten : to_text sample_site.php (entry (get_config sample_site.php one_client) "listen") =
      "192.0.2.1".toList := by decide +kernel
  have hlength : (page_clients (get_config sample_site.php one_client)).length = 1 := by
    decide +kernel
  obtain ⟨client, hclient⟩ := List.length_eq_one_iff.mp hlength
  refine (saved_runtime_iff sample_site one_client_reachable
    (enabled_of_normalized (by decide +kernel))).mpr ⟨?_, ?_, ?_⟩
  · intro a ha
    have haddress : ip_address "192.0.2.1".toList = some (.v4 ⟨3221225985, by decide⟩) := by
      decide +kernel
    rw [hlisten] at ha
    rw [show a = .v4 ⟨3221225985, by decide⟩ from Option.some.inj (ha.symm.trans haddress)]
    decide
  · rw [Unshared, hclient]
    exact List.pairwise_singleton _ _
  · decide +kernel

/-- Two clients with the same certificate are saved, and the receiver refuses the file. -/
theorem shared_fingerprint_refused :
    Reachable sample_site two_clients ∧
      entry (get_config sample_site.php two_clients) "enabled" = .bool true ∧
      ¬ ∃ config, parse_config (to_json (.arr (runtime_config sample_site.php
          (get_config sample_site.php two_clients)))) = .ok config ∧
        Agrees sample_site (get_config sample_site.php two_clients) config := by
  refine ⟨two_clients_reachable, enabled_of_normalized (by decide +kernel), ?_⟩
  rintro ⟨config, hconfig, -⟩
  have hrefused : (parse_config (to_json (.arr (runtime_config sample_site.php
      (get_config sample_site.php two_clients))))).isOk = false := by decide +kernel
  rw [hconfig] at hrefused
  cases hrefused

end F2bguard.Pages
