/-
The configuration of the receiver.

`parse_config` checks the decoded `config.json` member by member, in the order of the
source, and raises `ConfigError` with its message at the first that is wrong. What holds of
one client holds of the file as well: no two of its clients share an id or a fingerprint
(`parse_clients_iff`).

Every check of the source is a step of a `do` block or a branch, so that the message that is
raised is that of the first member that is wrong. The defaults are those of `dict.get`, and they
are checked like any other value.
-/
import F2bguard.Claims
import F2bguard.Ipaddress

set_option autoImplicit false

namespace F2bguard.ReceiverConfig

open F2bguard.PyText F2bguard.PyJson F2bguard.Ipaddress F2bguard.Claims

/-! ## The members

The helpers of the source, with the name of the member as an argument: messages name the member by
its path. -/

/-- `_expect_dict`: the items of an object. -/
def _expect_dict (value : Json) (name : Text) : Except Text (List (Text × Json)) :=
  match value with
  | .obj items => .ok items
  | _ => .error (name ++ " must be an object".toList)

/-- The keys of a dict that are not allowed, sorted. -/
def unknown_fields (value : List (Text × Json)) (allowed : List String) : List Text :=
  ((value.map Prod.fst).filter (fun key => key ∉ allowed.map String.toList)).mergeSort
    (fun a b => !decide (b < a))

/-- `_reject_unknown`. All unknown members are named in one message, in sorted order. -/
def _reject_unknown (value : List (Text × Json)) (allowed : List String) (name : Text) :
    Except Text Unit :=
  if unknown_fields value allowed ≠ [] then
    .error ("unknown ".toList ++ name ++ " field(s): ".toList ++
      ", ".toList.intercalate (unknown_fields value allowed))
  else .ok ()

/-- `_integer`. `true` and `false` are no integers here, although they are to Python. -/
def _integer (value : Json) (name : String) (minimum maximum : ℤ) : Except Text ℤ :=
  match value with
  | .int n =>
      if minimum ≤ n ∧ n ≤ maximum then .ok n
      else .error (name.toList ++ " must be between ".toList ++ dumps_int minimum ++
        " and ".toList ++ dumps_int maximum)
  | _ => .error (name.toList ++ " must be an integer".toList)

/-- `_path`. An absolute path begins with a slash; whether it exists is not asked. -/
def _path (value : Json) (name : String) : Except Text Text :=
  match value with
  | .str s =>
      if s = [] ∨ s.any (fun c => c.toNat == 0) then
        .error (name.toList ++ " must be a non-empty path".toList)
      else if s.head? = some '/' then .ok s
      else .error (name.toList ++ " must be an absolute path".toList)
  | _ => .error (name.toList ++ " must be a non-empty path".toList)

/-- `obj.get(key, default)` -/
def get_or (obj : List (Text × Json)) (key : String) (default : Json) : Json :=
  (get_item obj key.toList).getD default

/-! ## The dataclasses

What the rest of the service reads. The values of `Config` have all been checked. -/

structure TLSConfig where
  cert : Text := []
  key : Text := []
  ca : Text := []
  deriving DecidableEq

structure ClientConfig where
  id : Text
  cert_sha256 : List Text
  allowed_jails : Finset Text
  deriving DecidableEq

structure Limits where
  body_bytes : ℤ := 1048576
  events_per_request : ℤ := 1000
  claims_per_client : ℤ := 10000
  requests_per_minute : ℤ := 120
  deriving DecidableEq

/-- The parsed configuration. -/
structure Config where
  enabled : Bool
  listen : Text
  port : ℤ
  tls : TLSConfig
  clients : List ClientConfig
  database : Text
  whitelist_file : Text
  enforcement_socket : Text
  limits : Limits
  history_days : ℤ
  deriving DecidableEq

/-! ## Clients

Ids and fingerprints have to differ over the whole file, so the loops carry those seen so far. -/

def is_hex_digit (c : Char) : Bool :=
  ('0' ≤ c && c ≤ '9') || ('a' ≤ c && c ≤ 'f') || ('A' ≤ c && c ≤ 'F')

/-- `_FINGERPRINT_RE.fullmatch(value)` -/
def fingerprint_re (value : Text) : Bool := value.all is_hex_digit && value.length = 64

/-- `str.lower` of ASCII text. -/
def lower (s : Text) : Text :=
  s.map (fun c => if 'A' ≤ c ∧ c ≤ 'Z' then Char.ofNat (c.toNat + 32) else c)

/-- `clients[{index}]` -/
def clients_at (index : ℕ) : Text := "clients[".toList ++ to_dec index ++ [']']

/-- The loop over the fingerprints of a client. `fingerprints` are those of the file so far. They
are compared in lower case, so two spellings of one are a repetition, also within a client. -/
def parse_fingerprints (index : ℕ) :
    List Json → List Text → List Text → Except Text (List Text × List Text)
  | [], fingerprints, client_fps => .ok (fingerprints, client_fps)
  | .str fingerprint :: rest, fingerprints, client_fps =>
      if !fingerprint_re fingerprint then
        .error (clients_at index ++ " contains an invalid certificate fingerprint".toList)
      else if lower fingerprint ∈ fingerprints then
        .error ("certificate fingerprint is assigned more than once: ".toList ++ lower fingerprint)
      else
        parse_fingerprints index rest (fingerprints ++ [lower fingerprint])
          (client_fps ++ [lower fingerprint])
  | _ :: _, _, _ =>
      .error (clients_at index ++ " contains an invalid certificate fingerprint".toList)

/-- The loop over the jails of a client. A repetition is an error and is not dropped. -/
def parse_jails (index : ℕ) : List Json → Finset Text → Except Text (Finset Text)
  | [], jails => .ok jails
  | .str jail :: rest, jails =>
      if !id_re jail then .error (clients_at index ++ " contains an invalid jail".toList)
      else if jail ∈ jails then
        .error (clients_at index ++ " contains duplicate jail ".toList ++ jail)
      else parse_jails index rest (insert jail jails)
  | _ :: _, _ => .error (clients_at index ++ " contains an invalid jail".toList)

/-- A value that must be a list with an element. -/
def nonempty_array (value : Option Json) (message : Text) : Except Text (List Json) :=
  match value with
  | some (.arr (x :: xs)) => .ok (x :: xs)
  | _ => .error message

/-- One round of the loop over the clients: the client, and the fingerprints so far. The id is
checked before the fingerprints and these before the jails; what comes after the first fault is
not looked at. -/
def parse_client (index : ℕ) (item : Json) (client_ids fingerprints : List Text) :
    Except Text (ClientConfig × List Text) := do
  let client ← _expect_dict item (clients_at index)
  _reject_unknown client ["id", "cert_sha256", "allowed_jails"] (clients_at index)
  let client_id ←
    match get_item client "id".toList with
    | some (.str client_id) =>
        if id_re client_id then Except.ok client_id
        else .error (clients_at index ++ ".id is invalid".toList)
    | _ => .error (clients_at index ++ ".id is invalid".toList)
  if client_id ∈ client_ids then .error ("duplicate client id: ".toList ++ client_id)
  else
    let fp_raw ← nonempty_array (get_item client "cert_sha256".toList)
      (clients_at index ++ ".cert_sha256 must be a non-empty array".toList)
    let (fingerprints, client_fps) ← parse_fingerprints index fp_raw fingerprints []
    let jails_raw ← nonempty_array (get_item client "allowed_jails".toList)
      (clients_at index ++ ".allowed_jails must be a non-empty array".toList)
    let jails ← parse_jails index jails_raw ∅
    .ok (⟨client_id, client_fps, jails⟩, fingerprints)

/-- The loop over the clients. -/
def parse_clients : ℕ → List Json → List Text → List Text → Except Text (List ClientConfig)
  | _, [], _, _ => .ok []
  | index, item :: rest, client_ids, fingerprints => do
      let (client, fingerprints) ← parse_client index item client_ids fingerprints
      let clients ← parse_clients (index + 1) rest (client_ids ++ [client.id]) fingerprints
      .ok (client :: clients)

/-! ## The file

The members of the outer object, in the order of the source. -/

/-- The address to listen on, as it is printed. The unspecified address is refused however it is
spelled; a scope id is kept. -/
def parse_listen (value : Json) : Except Text Text :=
  match value with
  | .str listen =>
      match ip_address listen with
      | none => .error "listen must be an IP literal".toList
      | some listen_ip =>
          if listen_ip.is_unspecified then .error "listen must not be a wildcard address".toList
          else .ok (listen_ip.compressed (scope_id listen))
  | _ => .error "listen must be an IP literal".toList

/-- A path of `tls`, empty when it is missing. -/
def tls_path (tls : List (Text × Json)) (key name : String) : Except Text Text :=
  match get_item tls key.toList with
  | some value => _path value name
  | none => .ok []

/-- The three paths. Whether they may be missing is decided by `parse_config`. -/
def parse_tls (value : Json) : Except Text TLSConfig := do
  let tls ← _expect_dict value "tls".toList
  _reject_unknown tls ["cert", "key", "ca"] "tls".toList
  let cert ← tls_path tls "cert" "tls.cert"
  let key ← tls_path tls "key" "tls.key"
  let ca ← tls_path tls "ca" "tls.ca"
  .ok ⟨cert, key, ca⟩

/-- The four limits, each with its range. -/
def parse_limits (value : Json) : Except Text Limits := do
  let limits ← _expect_dict value "limits".toList
  _reject_unknown limits
    ["body_bytes", "events_per_request", "claims_per_client", "requests_per_minute"] "limits".toList
  let body_bytes ← _integer (get_or limits "body_bytes" (.int 1048576)) "limits.body_bytes" 1024 4194304
  let events_per_request ← _integer (get_or limits "events_per_request" (.int 1000))
    "limits.events_per_request" 1 10000
  let claims_per_client ← _integer (get_or limits "claims_per_client" (.int 10000))
    "limits.claims_per_client" 1 1000000
  let requests_per_minute ← _integer (get_or limits "requests_per_minute" (.int 120))
    "limits.requests_per_minute" 1 100000
  .ok ⟨body_bytes, events_per_request, claims_per_client, requests_per_minute⟩

def config_fields : List String :=
  ["enabled", "listen", "port", "tls", "clients", "database", "whitelist_file",
    "enforcement_socket", "limits", "history_days"]

/-- `parse_config`. A service that is enabled needs all three paths of `tls`. Clients may be
missing, then nobody can post. -/
def parse_config (raw : Json) : Except Text Config := do
  let obj ← _expect_dict raw "config".toList
  _reject_unknown obj config_fields "config".toList
  let enabled ←
    match get_or obj "enabled" (.bool false) with
    | .bool enabled => Except.ok enabled
    | _ => .error "enabled must be a boolean".toList
  let listen ← parse_listen (get_or obj "listen" (.str "127.0.0.1".toList))
  let port ← _integer (get_or obj "port" (.int 9443)) "port" 1 65535
  let tls ← parse_tls (get_or obj "tls" (.obj []))
  if enabled ∧ (tls.cert = [] ∨ tls.key = [] ∨ tls.ca = []) then
    .error "enabled service requires tls.cert, tls.key, and tls.ca".toList
  else
    let clients_raw ←
      match get_or obj "clients" (.arr []) with
      | .arr clients_raw => Except.ok clients_raw
      | _ => .error "clients must be an array".toList
    let clients ← parse_clients 0 clients_raw [] []
    let limits ← parse_limits (get_or obj "limits" (.obj []))
    let database ← _path (get_or obj "database" (.str "/var/db/f2bguard/state.sqlite".toList)) "database"
    let whitelist_file ← _path
      (get_or obj "whitelist_file" (.str "/usr/local/etc/f2bguard/whitelist.txt".toList)) "whitelist_file"
    let enforcement_socket ← _path
      (get_or obj "enforcement_socket" (.str "/var/run/f2bguard/pf.sock".toList)) "enforcement_socket"
    let history_days ← _integer (get_or obj "history_days" (.int 90)) "history_days" 1 3650
    .ok ⟨enabled, listen, port, tls, clients, database, whitelist_file, enforcement_socket, limits,
      history_days⟩

/-! ## Clients that are valid one by one

A client of a file is valid by itself or not, and that is most of what the loop checks. What
remains is that no two clients share an id or a fingerprint. -/

/-- The members of a client in the file. -/
structure ClientFields where
  id : Text
  cert_sha256 : List Text
  allowed_jails : List Text
  deriving DecidableEq

namespace ClientFields

def members (client : ClientFields) : List (Text × Json) :=
  [("id".toList, .str client.id), ("cert_sha256".toList, .arr (client.cert_sha256.map Json.str)),
    ("allowed_jails".toList, .arr (client.allowed_jails.map Json.str))]

def json (client : ClientFields) : Json := .obj client.members

def config (client : ClientFields) : ClientConfig :=
  ⟨client.id, client.cert_sha256.map lower, client.allowed_jails.toFinset⟩

/-- The members are valid, whatever other clients there are. -/
structure Parsable (client : ClientFields) : Prop where
  id : id_re client.id = true
  some_fingerprint : client.cert_sha256 ≠ []
  fingerprints : ∀ fingerprint ∈ client.cert_sha256, fingerprint_re fingerprint = true
  some_jail : client.allowed_jails ≠ []
  jails : ∀ jail ∈ client.allowed_jails, id_re jail = true
  distinct_jails : client.allowed_jails.Nodup

end ClientFields

/-- Valid fingerprints are taken unless one repeats. -/
theorem parse_fingerprints_iff {index : ℕ} {fps : List Text}
    (hfps : ∀ fingerprint ∈ fps, fingerprint_re fingerprint = true) :
    ∀ {fingerprints client_fps : List Text} {result : List Text × List Text}, fingerprints.Nodup →
      (parse_fingerprints index (fps.map Json.str) fingerprints client_fps = .ok result ↔
        (fingerprints ++ fps.map lower).Nodup ∧
          result = (fingerprints ++ fps.map lower, client_fps ++ fps.map lower)) := by
  induction fps with
  | nil =>
    intro fingerprints client_fps result hnodup
    rw [List.map_nil, List.map_nil, List.append_nil, List.append_nil, and_iff_right hnodup,
      parse_fingerprints, Except.ok.injEq]
    exact eq_comm
  | cons f fps ih =>
    intro fingerprints client_fps result hnodup
    rw [List.forall_mem_cons] at hfps
    rw [List.map_cons, List.map_cons, parse_fingerprints, hfps.1, if_neg (by simp)]
    by_cases hmem : lower f ∈ fingerprints
    · rw [if_pos hmem]
      refine iff_of_false (fun h => (by cases h)) (fun h => ?_)
      exact (List.nodup_append.mp h.1).2.2 _ hmem _ List.mem_cons_self rfl
    · rw [if_neg hmem]
      have hnext : (fingerprints ++ [lower f]).Nodup := List.nodup_append.mpr
        ⟨hnodup, List.nodup_singleton _, by
          rintro a ha b hb rfl
          exact hmem (List.mem_singleton.mp hb ▸ ha)⟩
      rw [ih hfps.2 hnext, List.append_assoc, List.append_assoc, List.singleton_append]

/-- Valid jails without a repetition are taken. -/
theorem parse_jails_ok {index : ℕ} {js : List Text} (hjs : ∀ jail ∈ js, id_re jail = true)
    (hnodup : js.Nodup) : ∀ {jails : Finset Text}, (∀ jail ∈ js, jail ∉ jails) →
      parse_jails index (js.map Json.str) jails = .ok (jails ∪ js.toFinset) := by
  induction js with
  | nil =>
    intro jails _
    rw [List.map_nil, parse_jails, List.toFinset_nil, Finset.union_empty]
  | cons j js ih =>
    intro jails hnew
    rw [List.forall_mem_cons] at hjs hnew
    rw [List.nodup_cons] at hnodup
    rw [List.map_cons, parse_jails, hjs.1, if_neg (by simp), if_neg hnew.1,
      ih hjs.2 hnodup.2, List.toFinset_cons, Finset.insert_union, Finset.union_insert]
    intro jail hjail hmem
    rcases Finset.mem_insert.mp hmem with rfl | hmem
    · exact hnodup.1 hjail
    · exact hnew.2 jail hjail hmem

theorem nonempty_array_map {xs : List Text} (hxs : xs ≠ []) (message : Text) :
    nonempty_array (some (.arr (xs.map Json.str))) message = .ok (xs.map Json.str) := by
  cases xs with
  | nil => exact absurd rfl hxs
  | cons x xs => rfl

/-- A client that is valid by itself is taken unless its id or a fingerprint of it is in use. -/
theorem parse_client_iff {index : ℕ} {client : ClientFields} (h : client.Parsable)
    {client_ids fingerprints : List Text} (hnodup : fingerprints.Nodup)
    {result : ClientConfig × List Text} :
    parse_client index client.json client_ids fingerprints = .ok result ↔
      client.id ∉ client_ids ∧ (fingerprints ++ client.cert_sha256.map lower).Nodup ∧
        result = (client.config, fingerprints ++ client.cert_sha256.map lower) := by
  -- the members are the three that are allowed
  have hknown : _reject_unknown client.members ["id", "cert_sha256", "allowed_jails"]
      (clients_at index) = .ok () := by
    rw [_reject_unknown, if_neg]
    rw [unknown_fields]
    simp [ClientFields.members]
  have hid : get_item client.members "id".toList = some (.str client.id) := rfl
  have hfps : get_item client.members "cert_sha256".toList =
      some (.arr (client.cert_sha256.map Json.str)) := rfl
  have hjails : get_item client.members "allowed_jails".toList =
      some (.arr (client.allowed_jails.map Json.str)) := rfl
  unfold parse_client ClientFields.json _expect_dict
  dsimp only [bind, Except.bind]
  rw [hknown, hid, hfps, hjails]
  dsimp only
  rw [h.id, if_pos rfl]
  by_cases hmem : client.id ∈ client_ids
  · rw [if_pos hmem]
    exact iff_of_false (fun h => (by cases h)) (fun h => h.1 hmem)
  rw [if_neg hmem, nonempty_array_map h.some_fingerprint, and_iff_right hmem]
  dsimp only
  -- the fingerprints decide: the jails are valid by themselves
  have hiff := @parse_fingerprints_iff index _ h.fingerprints fingerprints []
  cases hparse : parse_fingerprints index (client.cert_sha256.map Json.str) fingerprints [] with
  | error e =>
    refine iff_of_false (fun h => (by cases h)) (fun hand => ?_)
    have hok := (hiff hnodup).mpr ⟨hand.1, rfl⟩
    rw [hparse] at hok
    cases hok
  | ok parsed =>
    obtain ⟨hdistinct, rfl⟩ := (hiff hnodup).mp hparse
    dsimp only
    rw [nonempty_array_map h.some_jail]
    dsimp only
    rw [parse_jails_ok h.jails h.distinct_jails (fun _ _ => Finset.notMem_empty _),
      Finset.empty_union, and_iff_right hdistinct, Except.ok.injEq]
    exact eq_comm

/-- Clients that are valid one by one are taken when no two share an id or a fingerprint. -/
theorem parse_clients_iff {clients : List ClientFields} (h : ∀ client ∈ clients, client.Parsable) :
    ∀ {index : ℕ} {client_ids fingerprints : List Text} {result : List ClientConfig},
      client_ids.Nodup → fingerprints.Nodup →
      (parse_clients index (clients.map ClientFields.json) client_ids fingerprints = .ok result ↔
        (client_ids ++ clients.map ClientFields.id).Nodup ∧
          (fingerprints ++ clients.flatMap (fun client => client.cert_sha256.map lower)).Nodup ∧
          result = clients.map ClientFields.config) := by
  induction clients with
  | nil =>
    intro index client_ids fingerprints result hids hfps
    rw [List.map_nil, List.map_nil, List.flatMap_nil, List.append_nil, List.append_nil,
      and_iff_right hids, and_iff_right hfps, parse_clients, Except.ok.injEq]
    exact eq_comm
  | cons client clients ih =>
    intro index client_ids fingerprints result hids hfps
    rw [List.forall_mem_cons] at h
    -- the ids and the fingerprints seen so far go through the loop
    have hclient := @parse_client_iff index client h.1 client_ids fingerprints hfps
    rw [List.map_cons, parse_clients, List.map_cons, List.flatMap_cons, ← List.append_assoc,
      ← List.singleton_append, ← List.append_assoc]
    dsimp only [bind, Except.bind]
    cases hparse : parse_client index client.json client_ids fingerprints with
    | error e =>
      refine iff_of_false (fun h => (by cases h)) ?_
      -- distinct ids and fingerprints would let this client through
      rintro ⟨hids', hfps', -⟩
      have hnew : client.id ∉ client_ids := fun hmem =>
        (List.nodup_append.mp (List.nodup_append.mp hids').1).2.2 _ hmem _
          (List.mem_singleton.mpr rfl) rfl
      have hok := hclient.mpr ⟨hnew, (List.nodup_append.mp hfps').1, rfl⟩
      rw [hparse] at hok
      cases hok
    | ok parsed =>
      -- the rest starts from what this client adds
      obtain ⟨hnew, hdistinct, rfl⟩ := hclient.mp hparse
      dsimp only
      have hids' : (client_ids ++ [client.id]).Nodup := List.nodup_append.mpr
        ⟨hids, List.nodup_singleton _, by
          rintro a ha b hb rfl
          exact hnew (List.mem_singleton.mp hb ▸ ha)⟩
      have hrest := @ih h.2 (index + 1) (client_ids ++ [client.id])
        (fingerprints ++ client.cert_sha256.map lower)
      cases hparse' : parse_clients (index + 1) (clients.map ClientFields.json)
          (client_ids ++ [client.config.id]) (fingerprints ++ client.cert_sha256.map lower) with
      | error e =>
        refine iff_of_false (fun h => (by cases h)) ?_
        rintro ⟨h1, h2, -⟩
        have hok := (hrest hids' hdistinct).mpr ⟨h1, h2, rfl⟩
        rw [show client.id = client.config.id from rfl, hparse'] at hok
        cases hok
      | ok parsed =>
        obtain ⟨h1, h2, rfl⟩ := (hrest hids' hdistinct).mp hparse'
        dsimp only
        rw [and_iff_right h1, and_iff_right h2, Except.ok.injEq]
        exact eq_comm

end F2bguard.ReceiverConfig
