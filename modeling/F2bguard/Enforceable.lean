/-
When an enforcement succeeds although nothing fails.

`enforce_applies` says what the tables hold when `enforce` returns; this module says when it
returns. A call of SQLite, a connection to the helper or a call of `pfctl` may fail, and those
failures are nobody's fault; with all of them excluded (`Undisturbed`) there are still three
ways left in which an enforcement fails: the server cannot read or parse the whitelist file,
the helper cannot, or what is left of the desired addresses makes a request of more than 4 MiB.
Where none of them applies (`Enforceable`) the enforcement and the count after it succeed, and
only there (`enforce_and_count_iff`). The condition is one on the store and on the two readings
of the whitelist, so it does not go away by itself: as long as it fails, every write is answered
with a 503.

The other half of the module is the path a write takes to its enforcement. `Server.do_POST` is
what the exchange of sender and receiver is built on and takes the outcome of the enforcement
as an argument; `post` also reads the headers and carries the tables. For a request that is
framed the way the sender's HTTP client does it they are the same function (`post_framed`).
-/
import F2bguard.Handler
import F2bguard.HelperLimits
import F2bguard.Delivery

set_option autoImplicit false

namespace F2bguard.Enforcer

open F2bguard.PyText F2bguard.PyJson F2bguard.Ipaddress F2bguard.Networks F2bguard.Whitelist
open F2bguard.PfHelper F2bguard.HelperClient
open F2bguard.Store (DB Served effective_ips effective_ips_spec)

/-! ## What can fail, and what is left

Two conditions on the surroundings of an enforcement. The first is about failures and may hold at
one attempt and not at the next; the second is about the store and a file. -/

/-- **Nothing an enforcement uses fails.** SQLite carries out every call, the first connection
to the helper is accepted and transports request and answer as a whole, every call of `pfctl`
ends with status 0, and the tables it shows hold nothing but host addresses of their family
(which is all this program ever writes into them). -/
structure Undisturbed (s : Surroundings) (pf : PF) : Prop where
  database : ∀ call, s.database_fails call = false
  exchange : ∃ exchange exchanges n, s.exchanges = exchange :: exchanges ∧
    MAX_MESSAGE ≤ exchange.received ∧ exchange.authorized = true ∧
    exchange.returned = some n ∧ MAX_HELPER_MESSAGE ≤ n
  outcomes : ∀ call, s.outcomes call = .succeeded
  hosts : ∀ version, ∃ networks,
    host_entries version (splitlines (pf.tables version)) = .ok networks

/-- **The tables can be made what the store says.** The server reads its whitelist, the request
for the desired addresses without the whitelisted ones is not longer than the limit, and the
helper reads its whitelist too. The two readings need not agree, since the file may be replaced
between them. -/
structure Enforceable (s : Surroundings) (db : DB) : Prop where
  request : ∃ data networks desired_v4 desired_v6 v4 v6, s.server_file = .ok data ∧
    parse_whitelist data = .ok networks ∧
    effective_ips db s.clock.selected = some (desired_v4, desired_v6) ∧
    (NetworkIndex.of_networks networks).exclude desired_v4 = some v4 ∧
    (NetworkIndex.of_networks networks).exclude desired_v6 = some v6 ∧
    request_size v4 v6 ≤ MAX_HELPER_MESSAGE
  helper : ∃ networks, read_whitelist s.helper_file = .ok networks

/-! ## The helper's side

With every call of `pfctl` successful the helper has nothing left to raise for but the request and
its whitelist. -/

theorem command_succeeds {outcomes : ℕ → Outcome} (h : ∀ call, outcomes call = .succeeded) (pf : PF)
    (version : Version) (action : Action) :
    command outcomes pf version action = (.ok (pf.stdout version action),
      ⟨pf.after version action, pf.commands ++ [(version, action)]⟩) := by
  rw [command, h]

/-- With no call of `pfctl` failing, a request that parses and a whitelist that is read are
enough for the helper. The tables are shown before they are replaced, so what they hold at the
second `show` is what they held at the first. -/
theorem replace_succeeds {sha256 : Text → Text} {outcomes : ℕ → Outcome}
    {file : Except ReadFailure Text} {request : Json} {pf : PF}
    {requested : Families (List IPAddress)} {networks : List IPNetwork}
    (houtcomes : ∀ call, outcomes call = .succeeded)
    (hosts : ∀ version, ∃ networks,
      host_entries version (splitlines (pf.tables version)) = .ok networks)
    (hrequest : parse_request request = .ok requested) (hfile : read_whitelist file = .ok networks) :
    ∃ a pf', PfHelper.replace sha256 outcomes file request pf = (.ok a, pf') := by
  obtain ⟨previous4, h4⟩ := hosts .four
  obtain ⟨previous6, h6⟩ := hosts .six
  have hread4 : read_table outcomes pf .four =
      (.ok previous4, ⟨pf.tables, pf.commands ++ [(.four, .show)]⟩) := by
    rw [read_table, command_succeeds houtcomes]
    exact congrArg (·, _) h4
  have hread6 : read_table outcomes ⟨pf.tables, pf.commands ++ [(.four, .show)]⟩ .six =
      (.ok previous6, ⟨pf.tables, pf.commands ++ [(.four, .show)] ++ [(.six, .show)]⟩) := by
    rw [read_table, command_succeeds houtcomes]
    exact congrArg (·, _) h6
  rw [PfHelper.replace, hrequest, hfile]
  dsimp only
  rw [replace_with, hread4]
  dsimp only
  rw [hread6]
  dsimp only
  rw [replace_tables, command_succeeds houtcomes]
  dsimp only
  rw [command_succeeds houtcomes]
  exact ⟨_, _, rfl⟩

/-! ## The server's side

Both directions. What returned had a request within the limit and two whitelists that were read;
and with those given, the first exchange carries the request and the answer and the loop ends. -/

/-- A successful enforcement leaves an index behind. -/
theorem enforce_last_index {env : HelperClient.Env} {s : Surroundings} {w w' : World} {count : ℕ}
    (h : enforce env s w = (.ok count, w')) : ∃ index, w'.last_index = some index := by
  unfold enforce at h
  split at h
  · cases h
  split at h
  · cases h
  split at h
  · cases h
  dsimp only at h
  split at h
  · split at h <;> cases h
  · split at h
    · cases h
    · cases h
      exact ⟨_, rfl⟩

/-- Both families of a request are texts of addresses, so its length is the sum that
`request_size` computes. -/
theorem line_of_length (env : HelperClient.Env) (addresses : Families (List IPAddress)) :
    (line_of env addresses).length =
      request_size (addresses.v4.map IPAddress.str) (addresses.v6.map IPAddress.str) := by
  refine encode_request_length env ?_ ?_
  all_goals
    intro t ht
    obtain ⟨a, -, rfl⟩ := List.mem_map.mp ht
    exact plainText_str a

/-- What returns was enforceable. The three conditions are met one after the other on the way
down: `reload` reads and parses, `HelperClient.replace` measures the request, and the helper
has read its own whitelist when its answer says that the tables were replaced. -/
theorem enforceable_of_enforced {env : HelperClient.Env} {store : Store.Env} {s : Surroundings}
    {w w' : World} {count : ℕ} (hserved : Served store w.db)
    (h : enforce env s w = (.ok count, w')) : Enforceable s w.db := by
  obtain ⟨v4, v6, heffective, h4, h6, hcount⟩ := effective_ips_spec hserved s.clock.selected
  unfold enforce at h
  split at h
  · cases h
  rw [heffective] at h
  dsimp only at h
  split at h
  · cases h
  unfold replace_desired reload at h
  cases hserver : s.server_file with
  | error e =>
    rw [hserver] at h
    dsimp only [Except.bind] at h
    split at h <;> cases h
  | ok data =>
  cases hvalid : parse_whitelist data with
  | error e =>
    rw [hserver] at h
    dsimp only [Except.bind] at h
    rw [hvalid] at h
    dsimp only [Except.mapError] at h
    split at h <;> cases h
  | ok networks =>
  rw [hserver] at h
  dsimp only [Except.bind] at h
  rw [hvalid] at h
  dsimp only [Except.mapError] at h
  rw [exclude_texts, exclude_texts] at h
  dsimp only at h
  have hrequestable := requestable_kept networks h4 h6 hcount
  rcases hreplace : HelperClient.replace env s.outcomes s.helper_file s.exchanges
    ((kept networks v4).map IPAddress.str) ((kept networks v6).map IPAddress.str) w.pf
    with ⟨result, pf'⟩
  rw [hreplace] at h
  cases result with
  | error e =>
    dsimp only [Except.map] at h
    split at h <;> cases h
  | ok response =>
    have hreplaced : Replaced env s.outcomes s.helper_file (kept_families networks v4 v6) response
        pf' := replace_returns hrequestable hreplace
    obtain ⟨networks', hread, -⟩ := hreplaced.networks
    refine ⟨⟨data, networks, _, _, _, _, hserver, hvalid, heffective, exclude_texts networks v4,
      exclude_texts networks v6, ?_⟩, networks', hread⟩
    -- a request that is too long is not sent
    have hlength := line_of_length env (kept_families networks v4 v6)
    by_contra hlarge
    have hmax : MAX_HELPER_MESSAGE < (encode_request env ((kept networks v4).map IPAddress.str)
        ((kept networks v6).map IPAddress.str)).length := by
      have hline : (line_of env (kept_families networks v4 v6)).length =
        (encode_request env ((kept networks v4).map IPAddress.str)
          ((kept networks v6).map IPAddress.str)).length := rfl
      have hsize := not_le.mp hlarge
      rw [← hline, hlength]
      exact hsize
    rw [HelperClient.replace, if_pos hmax] at hreplace
    cases hreplace

/-- Where nothing fails, an enforceable store is enforced. -/
theorem enforced_of_enforceable {env : HelperClient.Env} {store : Store.Env} {s : Surroundings}
    {w : World} (hserved : Served store w.db) (hundisturbed : Undisturbed s w.pf)
    (h : Enforceable s w.db) : ∃ count w', enforce env s w = (.ok count, w') := by
  obtain ⟨d4, d6, heffective, h4, h6, hcount⟩ := effective_ips_spec hserved s.clock.selected
  obtain ⟨⟨data, networks, desired_v4, desired_v6, v4, v6, hserver, hvalid, hdesired, hv4, hv6,
    hsize⟩, networks', hread⟩ := h
  obtain ⟨exchange, exchanges, n, hexchanges, hreceived, hauthorized, hreturned, hn⟩ :=
    hundisturbed.exchange
  -- the texts of the condition are those of the addresses
  rw [heffective] at hdesired
  obtain ⟨rfl, rfl⟩ := Prod.mk.inj (Option.some.inj hdesired)
  rw [exclude_texts] at hv4 hv6
  cases hv4
  cases hv6
  have hrequestable := requestable_kept networks h4 h6 hcount
  have hfits : (line_of env (kept_families networks d4 d6)).length ≤ MAX_MESSAGE := by
    rw [line_of_length]
    exact hsize
  obtain ⟨a, pf', hreplace⟩ := @replace_succeeds env.sha256.hexdigest _ _ _ _ _ _
    hundisturbed.outcomes hundisturbed.hosts (parse_request_of hrequestable) hread
  obtain ⟨hresult, -⟩ := enforce_succeeds hundisturbed.database heffective hrequestable hfits
    hserver hvalid hexchanges (hfits.trans hreceived) hauthorized hreturned hn hreplace
  exact ⟨_, _, Prod.ext hresult rfl⟩

end F2bguard.Enforcer

namespace F2bguard.Handler

open F2bguard.PyText F2bguard.PyJson F2bguard.Claims F2bguard.Server F2bguard.Enforcer
open F2bguard.HelperClient (Failed)
open F2bguard.Store (DB Served ApplyResult)

/-! ## Enforcement and count

The handler makes two calls after a write, and a failure of either is a 503. -/

/-- The count fails with SQLite, before the first enforcement that succeeded, or at an address
that cannot be parsed. -/
theorem count_error {s : Surroundings} {w : World} {client_id : Text} {e : Failed}
    (h : client_effective_count s w client_id = .error e) :
    s.database_fails .count = true ∨ w.last_index = none ∨ e = .other := by
  unfold client_effective_count at h
  split at h
  · rename_i hfails
    exact Or.inl hfails
  split at h
  · cases h
    exact Or.inr (Or.inr rfl)
  · cases h
  · split at h
    · rename_i hnone
      exact Or.inr (Or.inl hnone)
    · split at h
      · cases h
      · cases h
        exact Or.inr (Or.inr rfl)

/-- **When an enforcement succeeds.** In a store that requests were posted to and with nothing
failing around it, the enforcement after a write and the count of the client's addresses end
without an error exactly when the store is enforceable. The count adds no condition: it reads
the index the enforcement has just left, and every address in the store can be parsed. -/
theorem enforce_and_count_iff {store : Store.Env} (env : HelperClient.Env) (s : Surroundings)
    (client_id : Text) {w : World} (hserved : Served store w.db) (h : Undisturbed s w.pf) :
    (∃ count, (enforce_and_count env s client_id w).1 = .ok count) ↔ Enforceable s w.db := by
  constructor
  · rintro ⟨count, hcount⟩
    unfold enforce_and_count at hcount
    rcases henforce : enforce env s w with ⟨result, w'⟩
    rw [henforce] at hcount
    cases result with
    | error e => cases hcount
    | ok n => exact enforceable_of_enforced hserved henforce
  · intro henforceable
    obtain ⟨n, w', henforce⟩ := @enforced_of_enforceable env _ _ _ hserved h henforceable
    have hserved' := enforce_served env s hserved
    obtain ⟨index, hindex⟩ := enforce_last_index henforce
    rw [henforce] at hserved'
    unfold enforce_and_count
    rw [henforce]
    dsimp only
    cases hcount : client_effective_count s w' client_id with
    | ok count => exact ⟨count, rfl⟩
    | error e =>
      -- each of the three exits of the count is closed
      rcases count_error hcount with hdatabase | hnone | rfl
      · rw [h.database] at hdatabase
        cases hdatabase
      · rw [hindex] at hnone
        cases hnone
      · exact absurd hcount (count_ne_other s client_id hserved')

/-- What `_finish_write` gets to know of an enforcement. The third kind of exception would leave
the handler; it does not come up in a store that requests were posted to
(`enforce_and_count_served`). -/
def outcome_of : Except Failed ℕ → Except Text ℕ
  | .ok count => .ok count
  | .error (.enforcement_error error) => .error error.message
  | .error _ => .error "enforcement state unavailable".toList

theorem finish_response_eq (result : ApplyResult) {finished : Except Failed ℕ}
    (h : finished ≠ .error .other) :
    finish_response result finished = some (_finish_write result (outcome_of finished)) := by
  cases finished with
  | ok count => rfl
  | error e =>
    cases e with
    | other => exact absurd rfl h
    | _ => rfl

/-! ## A framed request

The sender's client sends one length, one type and the whole body, so of the checks on the headers
only the size can refuse it. -/

/-- The path a URL ends in. -/
def path_text : Path → Text
  | .events => "/v1/events".toList
  | .snapshot => "/v1/snapshot".toList

theorem path_of_path_text (path : Path) : path_of (path_text path) = some path := by
  cases path with
  | events => exact if_pos rfl
  | snapshot =>
    rw [path_of, if_neg (by decide)]
    exact if_pos rfl

/-- **What `HTTPSClient.send` puts on the wire**: the body as a whole, with its length and its
type in the headers. -/
def framed (fingerprint : Option Text) (path : Path) (body : Text) : HttpRequest where
  fingerprint := fingerprint
  path := path_text path
  transfer_encoding := none
  content_lengths := [to_dec body.length]
  content_type := "application/json".toList
  available := body.length
  decoded := some body

/-- A number that is not absurdly large comes back from its decimal text. -/
theorem int_decimal_to_dec {n : ℕ} (h : (to_dec n).length ≤ int_max_str_digits) :
    int_decimal (to_dec n) = some (n : ℤ) := by
  have hdigit : ∀ c ∈ to_dec n, 48 ≤ c.toNat ∧ c.toNat ≤ 57 := by
    intro c hc
    have hdigit := mem_to_dec hc
    rw [is_digit, Bool.and_eq_true, decide_eq_true_eq, decide_eq_true_eq] at hdigit
    exact hdigit
  have hnot : ∀ {c : Char}, c.toNat < 48 ∨ 57 < c.toNat → c ∉ to_dec n := by
    intro c hc hmem
    have := hdigit c hmem
    omega
  have hnumeral : numeral (to_dec n) = to_dec n := by
    refine numeral_of_ascii (fun c hc => ?_)
    have := hdigit c hc
    omega
  have hdigits : decimal_digits (to_dec n) = some n := by
    have hgroups : split '_' (to_dec n) = [to_dec n] := split_of_not_mem (hnot (by decide))
    rw [decimal_digits, hgroups, if_pos]
    · rw [List.flatten_singleton, of_dec_to_dec]
    · rw [List.flatten_singleton]
      refine ⟨?_, h⟩
      rw [List.all_cons, List.all_nil, Bool.and_true, decide_eq_true_eq]
      exact ⟨to_dec_ne_nil n, List.all_eq_true.mpr (fun c hc => mem_to_dec hc)⟩
  unfold int_decimal
  rw [hnumeral]
  split
  · rename_i digits hsign
    exact absurd (by rw [hsign]; exact List.mem_cons_self) (hnot (c := '-') (by decide))
  · rename_i digits hsign
    exact absurd (by rw [hsign]; exact List.mem_cons_self) (hnot (c := '+') (by decide))
  · rw [hdigits]
    rfl

/-- The checks of the headers find nothing, so what is left of `_body` is the size and the
decoder. `send` does not send a body of more than `MAX_EVENT_BYTES`. -/
theorem _body_of_headers (env : Server.Env) {request : HttpRequest} {body : Text}
    (hencoding : request.transfer_encoding = none)
    (hlengths : request.content_lengths = [to_dec body.length])
    (htype : request.content_type = "application/json".toList)
    (havailable : request.available = body.length) (hdecoded : request.decoded = some body)
    (h : body.length ≤ Sender.MAX_EVENT_BYTES) : _body env request = Server._body env body := by
  have hlength : int_decimal (to_dec body.length) = some (body.length : ℤ) := by
    refine int_decimal_to_dec ((to_dec_length_le (k := 7) (by decide)).mpr ?_ |>.trans (by decide))
    exact lt_of_le_of_lt h (by decide)
  have hcomma : ',' ∉ to_dec body.length := by
    intro hmem
    exact absurd (mem_to_dec hmem) (by decide)
  unfold _body Server._body
  rw [hencoding, hlengths, hdecoded, havailable, if_neg (by simp)]
  dsimp only
  rw [if_neg hcomma, hlength]
  dsimp only
  rw [if_neg (by omega)]
  by_cases hlarge : env.limits.body_bytes < body.length
  · rw [if_pos hlarge, if_pos (by exact_mod_cast hlarge)]
  · rw [if_neg hlarge, if_neg (by exact_mod_cast hlarge), if_neg (not_not.mpr htype)]
    refine (if_neg (lt_irrefl (body.length : ℤ))).trans ?_
    cases loads (strict_decoder env.store.floats env.max_depth) body with
    | ok raw => rfl
    | error e => cases e <;> rfl

theorem _body_framed (env : Server.Env) (fingerprint : Option Text) (path : Path) {body : Text}
    (h : body.length ≤ Sender.MAX_EVENT_BYTES) :
    _body env (framed fingerprint path body) = Server._body env body :=
  _body_of_headers env rfl rfl rfl rfl rfl h

/-- When SQLite does not fail, `write` is `store_write`: a refused request reaches neither. -/
theorem write_eq (env : Server.Env) (client : ClientConfig) (db : DB) (path : Path) (raw : Json)
    {moment : Moment} (h : moment.write_fails = false) :
    write env client db path raw moment = store_write env client db path raw moment.now := by
  unfold write store_write
  cases read_request env client path raw with
  | error e => rfl
  | ok request =>
    dsimp only
    rw [if_neg (by simp [h])]

/-- **The two models of `do_POST` are one.** For a framed request and a write that SQLite does
not fail at, `post` answers what `Server.do_POST` answers when it is told how the enforcement
ends, and both leave the same rows; `post` moreover keeps the record of the enforcement and the
tables. -/
theorem post_framed (service : Service) (client : RegisteredClient) (fingerprint : Option Text)
    (path : Path) (body : Text) (moment : Moment) (w : World)
    (hserved : Served service.server.store w.db) (hbody : body.length ≤ Sender.MAX_EVENT_BYTES)
    (hwrites : moment.write_fails = false) :
    (post service client (framed fingerprint path body) moment w).1 =
        (Server.do_POST service.server client.toClientConfig w.db path body moment.now (fun db =>
          outcome_of (enforce_and_count service.helper moment.surroundings client.id
            { w with db }).1)).1 ∧
      rows (post service client (framed fingerprint path body) moment w).2.db =
        rows (Server.do_POST service.server client.toClientConfig w.db path body moment.now (fun db =>
          outcome_of (enforce_and_count service.helper moment.surroundings client.id
            { w with db }).1)).2 ∧
      Served service.server.store
        (post service client (framed fingerprint path body) moment w).2.db := by
  unfold post Server.do_POST
  rw [_body_framed service.server fingerprint path hbody]
  cases Server._body service.server body with
  | error response => exact ⟨rfl, rfl, hserved⟩
  | ok raw =>
    dsimp only [framed]
    rw [path_of_path_text]
    dsimp only
    rw [write_eq _ _ _ _ _ hwrites]
    rcases hwrite : store_write service.server client.toClientConfig w.db path raw moment.now with
      ⟨result, db⟩
    have hcases := hwrite
    rw [← write_eq _ _ _ _ _ hwrites] at hcases
    -- only a stored write is enforced, and it was validated
    rcases write_cases hcases with ⟨e, rfl, rfl⟩ | ⟨request, r, hread, rfl, -, hdb⟩
    · exact ⟨rfl, rfl, hserved⟩
    · have hposted := hserved.perform (a := .call (request_call service.server client.toClientConfig
        request moment.now)) (read_request_ok hread).1
      rw [Store.Action.perform, ← hdb] at hposted
      obtain ⟨hserved', hother⟩ := enforce_and_count_served service.helper moment.surroundings
        client.id (w := { w with db }) hposted
      exact ⟨finish_response_eq r hother, rows_enforce_and_count _ _ _ _, hserved'⟩

end F2bguard.Handler
