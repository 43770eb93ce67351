/-
`GuardHandler.do_POST` (`server.py`) as a whole: from the certificate to the reply.

A POST is authenticated by the fingerprint of its certificate, counted by the rate limiter, its
headers and its body are checked, what it says is validated, checked against the client's jails and
stored, and then the tables are enforced. Reply and store stay consistent on every path: rows
change only for the client the fingerprint belongs to and only with a reply that says so, and a
reply in the four hundreds means that nothing has changed (`do_POST_consistent`).

An exception that no handler of `do_POST` names ends the thread of the request: the connection is
closed and the client gets no reply. That is the response `none` here. What the handler did before
the exception stays done; a write that was committed is not taken back by it.
-/
import F2bguard.Enforcer
import F2bguard.Isolation

set_option autoImplicit false

namespace F2bguard.Handler

open F2bguard.PyText F2bguard.PyJson F2bguard.Claims F2bguard.Server F2bguard.Enforcer
open F2bguard.HelperClient (Failed)
open F2bguard.Store (DB Served Request ApplyResult restrict restrict_perform_other perform_outcome
  bind_eq_ok)

/-! ## The service

What a service is made of: the limits and the clock of the store, the connection to the helper,
and the clients of the configuration. None of it changes while the service runs. -/

/-- A client of the configuration, with its fingerprints. They are lower-case hexadecimal texts
and are compared as texts; the certificate itself was checked when the connection was made. -/
structure RegisteredClient extends ClientConfig where
  cert_sha256 : List Text

structure Service where
  server : Server.Env
  helper : HelperClient.Env
  clients : List RegisteredClient
  requests_per_minute : ℕ := 120

/-- `config.clients_by_fingerprint.get(fingerprint)`: the last client that lists it, as a later
item of a dictionary replaces an earlier one. That no fingerprint is listed twice is what
`parse_config` checks. -/
def clients_by_fingerprint (service : Service) (fingerprint : Text) : Option RegisteredClient :=
  (service.clients.filter (fun c => fingerprint ∈ c.cert_sha256)).getLast?

/-- What the service keeps: store, tables, index, and the times of the rate limiter. The times are
in memory and start empty with the process. -/
structure State extends World where
  requests : Text → List ℚ

/-- `RateLimiter.allow`. Times that are a minute old or older leave the deque from the left. A
call that is refused leaves no time behind, so that a client that keeps asking gets through again
once its accepted calls are old enough. -/
def allow (limit : ℕ) (requests : Text → List ℚ) (client_id : Text) (now : ℚ) :
    Bool × (Text → List ℚ) :=
  let history := (requests client_id).dropWhile (fun time => time ≤ now - 60)
  if limit ≤ history.length then (false, Function.update requests client_id history)
  else (true, Function.update requests client_id (history ++ [now]))

/-! ## The body

The headers decide whether the body is read at all. Whatever is wrong with it is answered by a
response of its own, and the store is not looked at. -/

/-- What `do_POST` reads of a request. The fingerprint is missing when there is no certificate,
the text when the bytes cannot be decoded. A header that may be sent several times is the list of
its values. -/
structure HttpRequest where
  fingerprint : Option Text
  path : Text
  transfer_encoding : Option Text
  content_lengths : List Text
  content_type : Text
  /-- the bytes that arrive -/
  available : ℕ
  decoded : Option Text

/-- `_body`: the value, or the response that was sent, `none` when an exception escapes. The
length has to be given once, as a number within the limit, and is read before the type of the
content; a body that ends early is a 400. What `strict_json_loads` reports as a `ConfigError` is
answered by a 400; the exceptions it lets through escape here as well. -/
def _body (env : Server.Env) (request : HttpRequest) : Except (Option Response) Json :=
  if request.transfer_encoding.isSome then
    .error (some (error_response 400 "transfer encoding is unsupported".toList))
  else
    match request.content_lengths with
    | [] => .error (some (error_response 411 "Content-Length required".toList))
    | [raw_length] =>
        if ',' ∈ raw_length then
          .error (some (error_response 400 "exactly one Content-Length required".toList))
        else
          match int_decimal raw_length with
          | none => .error (some (error_response 400 "invalid Content-Length".toList))
          | some length =>
              if length < 0 then
                .error (some (error_response 400 "invalid Content-Length".toList))
              else if env.limits.body_bytes < length then
                .error (some (error_response 413 "request body too large".toList))
              else if request.content_type ≠ "application/json".toList then
                .error (some (error_response 415 "application/json required".toList))
              else if (request.available : ℤ) < length then
                .error (some (error_response 400 "incomplete request body".toList))
              else
                match request.decoded with
                | none => .error (some (error_response 400 "invalid JSON".toList))
                | some text =>
                    match loads (strict_decoder env.store.floats env.max_depth) text with
                    | .ok raw => .ok raw
                    | .error (.config_error message) => .error (some (error_response 400 message))
                    | .error _ => .error none
    | _ => .error (some (error_response 400 "exactly one Content-Length required".toList))

/-! ## `do_POST`

The order matters: an unknown certificate is refused before anything is counted, the rate limiter
comes before the body is read, and the path is looked at after the body. -/

/-- The two paths that can be posted to. -/
def path_of (path : Text) : Option Path :=
  if path = "/v1/events".toList then some .events
  else if path = "/v1/snapshot".toList then some .snapshot
  else none

/-- What a POST meets: the clocks of the rate limiter and of the store, whether SQLite fails while
the write is applied, and what the enforcement after it meets. -/
structure Moment where
  monotonic : ℚ
  now : ℚ
  write_fails : Bool
  surroundings : Surroundings

/-- The `try` statement of `do_POST`. What is read and validated does not touch the store, so a
request that is refused there leaves it as it is. A write that SQLite fails at is rolled back. -/
def write (env : Server.Env) (client : ClientConfig) (db : DB) (path : Path) (raw : Json)
    (moment : Moment) : Except Refused ApplyResult × DB :=
  match read_request env client path raw with
  | .error e => (.error e, db)
  | .ok _ =>
      if moment.write_fails then (.error (.store .integrity), db)
      else store_write env client db path raw moment.now

/-- The calls of the enforcer in `_finish_write`. The count is made only when the enforcement
returned; the world it leaves is kept in both cases. -/
def enforce_and_count (env : HelperClient.Env) (s : Surroundings) (client_id : Text) (w : World) :
    Except Failed ℕ × World :=
  match enforce env s w with
  | (.error e, w) => (.error e, w)
  | (.ok _, w) => (client_effective_count s w client_id, w)

/-- The response of `_finish_write`, `none` when an exception escapes. By now the write is
committed, so the reply says `accepted` whether or not the enforcement succeeded: 200 when it did,
503 when it failed with an error of its own or of the database. -/
def finish_response (result : ApplyResult) : Except Failed ℕ → Option Response
  | .ok count => some (_finish_write result (.ok count))
  | .error (.enforcement_error error) => some (_finish_write result (.error error.message))
  | .error .database =>
      some (_finish_write result (.error "enforcement state unavailable".toList))
  | .error .other => none

/-- `do_POST`, once the client is known. It ends at the first of four things: the body is refused,
the path is none of the two, the write is refused, or the write is stored and the tables are
enforced. -/
def post (service : Service) (client : RegisteredClient) (request : HttpRequest) (moment : Moment)
    (w : World) : Option Response × World :=
  match _body service.server request with
  | .error response => (response, w)
  | .ok raw =>
      match path_of request.path with
      | none => (some (error_response 404 "not found".toList), w)
      | some path =>
          match write service.server client.toClientConfig w.db path raw moment with
          | (.error e, db) => (refusal e, { w with db })
          | (.ok result, db) =>
              let (finished, w) :=
                enforce_and_count service.helper moment.surroundings client.id { w with db }
              (finish_response result finished, w)

/-- `do_POST`; the client is what `_authorize` returns. A request without a known certificate is
not counted, one that the limiter refuses is not read. -/
def do_POST (service : Service) (request : HttpRequest) (moment : Moment) (w : State) :
    Option Response × State :=
  match request.fingerprint.bind (clients_by_fingerprint service) with
  | none => (some (error_response 403 "unknown client certificate".toList), w)
  | some client =>
      match allow service.requests_per_minute w.requests client.id moment.monotonic with
      | (false, requests) =>
          (some (error_response 429 "rate limit exceeded".toList), { w with requests })
      | (true, requests) =>
          let (response, world) := post service client request moment w.toWorld
          (response, ⟨world, requests⟩)

/-! ## Enforcement and the rows

An enforcement writes one table of the store, its own record, and none of those a client can
change. `rows` is the store without that record. -/

/-- The tables without the record of the enforcement. -/
def rows (db : DB) : DB := { db with enforcement_state := {} }

/-- All rows of a client. -/
def client_rows (db : DB) (c : Text) : DB := restrict (rows db) c

/-- Enforcement writes its own record and nothing else. -/
theorem rows_enforce (env : HelperClient.Env) (s : Surroundings) (w : World) :
    rows (enforce env s w).2.db = rows w.db := by
  unfold enforce
  split
  · rfl
  split
  · rfl
  split
  · rfl
  dsimp only
  split
  · split <;> rfl
  · split <;> rfl

theorem enforce_served {store : Store.Env} (env : HelperClient.Env) (s : Surroundings) {w : World}
    (h : Served store w.db) : Served store (enforce env s w).2.db := by
  unfold enforce
  split
  · exact h
  split
  · exact h
  split
  · exact h
  rename_i desired_v4 desired_v6 _ _
  have hattempt := h.perform (a := .attempt (env.sha256.hexdigest (join '\n' (desired_v4 ++ desired_v6)))
    s.clock.attempted) trivial
  dsimp only
  split
  · split
    · exact hattempt
    · exact hattempt.perform (a := .failure _ _ s.clock.finished) trivial
  · split
    · exact hattempt
    · exact hattempt.perform (a := .success _ _ _ _ s.clock.finished) trivial

/-- In a store that requests were posted to no address is unreadable. -/
theorem enforce_ne_other {store : Store.Env} (env : HelperClient.Env) (s : Surroundings) {w : World}
    (h : Served store w.db) : (enforce env s w).1 ≠ .error .other := by
  obtain ⟨v4, v6, heffective, -⟩ := Store.effective_ips_spec h s.clock.selected
  unfold enforce
  rw [heffective]
  split
  · exact fun h => (by cases h)
  dsimp only
  split
  · exact fun h => (by cases h)
  split
  · split <;> exact fun h => (by cases h)
  · split <;> exact fun h => (by cases h)

theorem exclude_isSome (index : Networks.NetworkIndex) {texts : List Text}
    (h : ∀ t ∈ texts, (Ipaddress.ip_address t).isSome) : ∃ kept, index.exclude texts = some kept := by
  induction texts with
  | nil => exact ⟨[], rfl⟩
  | cons t ts ih =>
    rw [List.forall_mem_cons] at h
    obtain ⟨a, ha⟩ := Option.isSome_iff_exists.mp h.1
    obtain ⟨kept, hkept⟩ := ih h.2
    rw [Networks.NetworkIndex.exclude, Networks.NetworkIndex.contains_literal, ha, hkept]
    exact ⟨_, rfl⟩

theorem count_ne_other {store : Store.Env} (s : Surroundings) {w : World} (client_id : Text)
    (h : Served store w.db) : client_effective_count s w client_id ≠ .error .other := by
  obtain ⟨addresses, hmap, -, -⟩ := @Store.addresses_of_rows
    (w.db.claims.rows.filter (fun r => r.client_id = client_id ∧
      Store.is_effective s.clock.counted r))
    (fun r hr => h.canonical r (List.mem_filter.mp hr).1)
  have heffective : Store.client_effective_ips w.db client_id s.clock.counted =
      some (Store.family_lists addresses) := by
    rw [Store.client_effective_ips, hmap]
    rfl
  have hparse : ∀ {version : Ipaddress.Version}, ∀ t ∈ (Store.family addresses version).map
      Ipaddress.IPAddress.str, (Ipaddress.ip_address t).isSome := by
    intro version t ht
    obtain ⟨a, -, rfl⟩ := List.mem_map.mp ht
    rw [Ipaddress.ip_address_str]
    rfl
  have hlists : Store.family_lists addresses =
      ((Store.family addresses .four).map Ipaddress.IPAddress.str,
        (Store.family addresses .six).map Ipaddress.IPAddress.str) := rfl
  unfold client_effective_count
  split
  · exact fun h => (by cases h)
  rw [heffective, hlists]
  split
  · rename_i hnone
    cases hnone
  · exact fun h => (by cases h)
  · rename_i v4 v6 _ hsome
    obtain ⟨rfl, rfl⟩ := Prod.mk.inj (Option.some.inj hsome)
    split
    · exact fun h => (by cases h)
    · rename_i index _
      obtain ⟨k4, h4⟩ := exclude_isSome index (@hparse .four)
      obtain ⟨k6, h6⟩ := exclude_isSome index (@hparse .six)
      rw [h4, h6]
      exact fun h => (by cases h)

/-! ## Writes

A request that is refused leaves the store; one that is stored is a call of the store for the
client of the fingerprint, and it names only jails that are allowed to that client. -/

/-- The jails a request names. -/
def request_jails : Request → List Text
  | .events es => es.map Event.jail
  | .snapshot _ _ claims => claims.map Claim.jail

/-- What was read was validated, and its jails are allowed. -/
theorem read_request_ok {env : Server.Env} {client : ClientConfig} {path : Path} {raw : Json}
    {request : Request} (h : read_request env client path raw = .ok request) :
    request.Validated ∧ ∀ jail ∈ request_jails request, jail ∈ client.allowed_jails := by
  unfold read_request at h
  cases path with
  | events =>
    obtain ⟨body, -, h⟩ := bind_eq_ok.mp h
    obtain ⟨events, hevents, h⟩ := bind_eq_ok.mp h
    obtain ⟨u, hallowed, h⟩ := bind_eq_ok.mp h
    cases h
    refine ⟨?_, Sender._allowed_eq_ok.mp hallowed⟩
    cases hvalidate : validate_events (field body "events".toList) env.limits.events_per_request with
    | error e =>
      rw [hvalidate] at hevents
      cases hevents
    | ok es =>
      rw [hvalidate] at hevents
      cases hevents
      exact Request.Validated.events hvalidate
  | snapshot =>
    obtain ⟨body, -, h⟩ := bind_eq_ok.mp h
    obtain ⟨⟨snapshot_id, seq, claims⟩, hsnapshot, h⟩ := bind_eq_ok.mp h
    obtain ⟨u, hallowed, h⟩ := bind_eq_ok.mp h
    cases h
    refine ⟨?_, Sender._allowed_eq_ok.mp hallowed⟩
    cases hvalidate : validate_snapshot (field body "snapshot_id".toList)
        (field body "seq".toList) (field body "claims".toList) env.limits.claims_per_client with
    | error e =>
      rw [hvalidate] at hsnapshot
      cases hsnapshot
    | ok result =>
      rw [hvalidate] at hsnapshot
      cases hsnapshot
      exact Request.Validated.snapshot hvalidate

/-- A write is refused and changes nothing, or it is a call for the client's own rows that is
accepted. -/
theorem write_cases {env : Server.Env} {client : ClientConfig} {db db' : DB} {path : Path}
    {raw : Json} {moment : Moment} {result : Except Refused ApplyResult}
    (h : write env client db path raw moment = (result, db')) :
    (∃ e, result = .error e ∧ db' = db) ∨
      ∃ request r, read_request env client path raw = .ok request ∧ result = .ok r ∧
        r.accepted = true ∧
        db' = ((request_call env client request moment.now).perform env.store db).2 := by
  unfold write at h
  cases hread : read_request env client path raw with
  | error e =>
    rw [hread] at h
    obtain ⟨rfl, rfl⟩ := Prod.mk.inj h
    exact Or.inl ⟨_, rfl, rfl⟩
  | ok request =>
    rw [hread] at h
    dsimp only at h
    split at h
    · obtain ⟨rfl, rfl⟩ := Prod.mk.inj h
      exact Or.inl ⟨_, rfl, rfl⟩
    · unfold store_write at h
      rw [hread] at h
      dsimp only at h
      rcases hperform : (request_call env client request moment.now).perform env.store db with
        ⟨stored, db1⟩
      rw [hperform] at h
      obtain ⟨rfl, rfl⟩ := Prod.mk.inj h
      cases perform_outcome hperform with
      | refused e => exact Or.inl ⟨_, rfl, rfl⟩
      | known duplicate hne hold hdb => exact Or.inr ⟨request, _, rfl, rfl, rfl, by rw [hperform]⟩
      | fresh hfresh => exact Or.inr ⟨request, _, rfl, rfl, rfl, by rw [hperform]⟩

/-! ## Replies

A reply says `"accepted": true` exactly when something was stored, and then its status is 200 or
503. The statuses in the four hundreds come from the paths that store nothing. -/

/-- `"accepted": true` -/
def says_accepted (response : Response) : Bool :=
  match response.body with
  | .obj items => match get_item items "accepted".toList with
    | some (.bool accepted) => accepted
    | _ => false
  | _ => false

/-- The reply to a write that was stored. -/
theorem finish_response_spec {result : ApplyResult} (haccepted : result.accepted = true)
    {finished : Except Failed ℕ} (h : finished ≠ .error .other) :
    ∃ response, finish_response result finished = some response ∧
      (response.status = 200 ∨ response.status = 503) ∧ says_accepted response = true := by
  have hget : ∀ (value : Bool) (items : List (Text × Json)),
      get_item (("accepted".toList, Json.bool value) :: items) "accepted".toList =
        some (.bool value) := by
    intro value items
    have hfind := @List.find?_cons_of_pos (Text × Json)
      (fun item => decide (item.1 = "accepted".toList)) ("accepted".toList, .bool value) items
      (decide_eq_true rfl)
    rw [get_item, hfind]
    rfl
  cases finished with
  | ok count =>
    refine ⟨_, rfl, Or.inl rfl, ?_⟩
    rw [says_accepted, _finish_write]
    dsimp only
    rw [hget]
    exact haccepted
  | error e =>
    cases e with
    | enforcement_error error =>
      refine ⟨_, rfl, Or.inr rfl, ?_⟩
      rw [says_accepted, _finish_write]
      dsimp only
      rw [hget]
      exact haccepted
    | database =>
      refine ⟨_, rfl, Or.inr rfl, ?_⟩
      rw [says_accepted, _finish_write]
      dsimp only
      rw [hget]
      exact haccepted
    | other => exact absurd rfl h

theorem rows_enforce_and_count (env : HelperClient.Env) (s : Surroundings) (client_id : Text)
    (w : World) : rows (enforce_and_count env s client_id w).2.db = rows w.db := by
  have hrows := rows_enforce env s w
  unfold enforce_and_count
  rcases henforce : enforce env s w with ⟨result, w'⟩
  rw [henforce] at hrows
  cases result with
  | error e => exact hrows
  | ok count => exact hrows

theorem enforce_and_count_served {store : Store.Env} (env : HelperClient.Env) (s : Surroundings)
    (client_id : Text) {w : World} (h : Served store w.db) :
    Served store (enforce_and_count env s client_id w).2.db ∧
      (enforce_and_count env s client_id w).1 ≠ .error .other := by
  have hserved := enforce_served env s h
  have hother := enforce_ne_other env s h
  unfold enforce_and_count
  rcases henforce : enforce env s w with ⟨result, w'⟩
  rw [henforce] at hserved hother
  cases result with
  | error e => exact ⟨hserved, fun h => hother (by cases h; rfl)⟩
  | ok count => exact ⟨hserved, count_ne_other s client_id hserved⟩

theorem registered_of_lookup {service : Service} {fingerprint : Text} {client : RegisteredClient}
    (h : clients_by_fingerprint service fingerprint = some client) :
    client ∈ service.clients ∧ fingerprint ∈ client.cert_sha256 := by
  have hmem := List.mem_of_getLast? h
  rw [List.mem_filter, decide_eq_true_eq] at hmem
  exact hmem

/-- How `post` ends: nothing is written, or a validated request of the client with allowed jails
is applied, and the reply says so. The case of a write that was applied and got no reply does not
occur: what could raise there is excluded by the store (`Served`). -/
inductive Ended (service : Service) (client : RegisteredClient) (request : HttpRequest)
    (moment : Moment) (w : World) : Option Response → World → Prop
  | refused {response : Option Response} : Ended service client request moment w response w
  | stored {raw : Json} {path : Path} {posted : Request} {response : Response} {w' : World}
      (hbody : _body service.server request = .ok raw)
      (hread : read_request service.server client.toClientConfig path raw = .ok posted)
      (hrows : rows w'.db = rows ((request_call service.server client.toClientConfig posted
        moment.now).perform service.server.store w.db).2)
      (hserved : Served service.server.store w'.db)
      (hstatus : response.status = 200 ∨ response.status = 503)
      (haccepted : says_accepted response = true) :
      Ended service client request moment w (some response) w'

theorem post_ended {service : Service} {client : RegisteredClient} {request : HttpRequest}
    {moment : Moment} {w w' : World} {response : Option Response}
    (hserved : Served service.server.store w.db)
    (h : post service client request moment w = (response, w')) :
    Ended service client request moment w response w' := by
  unfold post at h
  split at h
  · obtain ⟨rfl, rfl⟩ := Prod.mk.inj h
    exact Ended.refused
  rename_i raw hbody
  split at h
  · obtain ⟨rfl, rfl⟩ := Prod.mk.inj h
    exact Ended.refused
  rename_i path _
  rcases hwrite : write service.server client.toClientConfig w.db path raw moment with ⟨result, db⟩
  rw [hwrite] at h
  -- a write is refused, or it is stored and the tables are enforced
  rcases write_cases hwrite with ⟨e, rfl, rfl⟩ | ⟨posted, r, hread, rfl, haccepted, rfl⟩
  · obtain ⟨rfl, rfl⟩ := Prod.mk.inj h
    exact Ended.refused
  · have hposted := hserved.perform (a := .call (request_call service.server client.toClientConfig
      posted moment.now)) (read_request_ok hread).1
    rw [Store.Action.perform] at hposted
    dsimp only at h
    generalize hworld : ({ w with db := ((request_call service.server client.toClientConfig posted
      moment.now).perform service.server.store w.db).2 } : World) = stored at h
    have hdb : stored.db = ((request_call service.server client.toClientConfig posted
        moment.now).perform service.server.store w.db).2 := by
      rw [← hworld]
    rw [← hdb] at hposted
    have hcounted := enforce_and_count_served service.helper moment.surroundings client.id hposted
    have hrows := rows_enforce_and_count service.helper moment.surroundings client.id stored
    obtain ⟨rfl, rfl⟩ := Prod.mk.inj h
    obtain ⟨response, hresponse, hstatus, hsays⟩ := finish_response_spec haccepted hcounted.2
    rw [hresponse]
    exact Ended.stored hbody hread (by rw [hrows, hdb]) hcounted.1 hstatus hsays

/-- **Reply and store agree.** For every service, request, moment and store that requests were
posted to: when a row of a client has changed, the fingerprint is registered to that client, what
was applied names only jails that are allowed to it, no other client's row has changed, and the
reply is a 200 or a 503 that says `"accepted": true`; and when the reply is in the four hundreds,
no table has changed. So a sender that gets a reply knows from it whether its request was stored.
-/
theorem do_POST_consistent (service : Service) (request : HttpRequest) (moment : Moment)
    (w w' : State) (response : Option Response) (hserved : Served service.server.store w.db)
    (h : do_POST service request moment w = (response, w')) :
    (∀ c, client_rows w'.db c ≠ client_rows w.db c →
      (∃ client ∈ service.clients, client.id = c ∧
        (∃ fingerprint ∈ client.cert_sha256, request.fingerprint = some fingerprint) ∧
        ∃ raw path posted, _body service.server request = .ok raw ∧
          read_request service.server client.toClientConfig path raw = .ok posted ∧
          (∀ jail ∈ request_jails posted, jail ∈ client.allowed_jails) ∧
          rows w'.db = rows ((request_call service.server client.toClientConfig posted
            moment.now).perform service.server.store w.db).2) ∧
      (∀ other, other ≠ c → client_rows w'.db other = client_rows w.db other) ∧
      ∃ reply, response = some reply ∧ (reply.status = 200 ∨ reply.status = 503) ∧
        says_accepted reply = true) ∧
    (∀ reply, response = some reply → 400 ≤ reply.status → reply.status < 500 → w'.db = w.db) ∧
    Served service.server.store w'.db := by
  have hsame : ∀ (reply : Option Response) (requests : Text → List ℚ),
      (reply, { w with requests }) = (response, w') → w'.db = w.db := by
    intro reply requests heq
    rw [← (Prod.mk.inj heq).2]
  -- where the tables are the same there is nothing to show
  have hunchanged : w'.db = w.db →
      (∀ c, client_rows w'.db c ≠ client_rows w.db c → False) ∧ Served service.server.store w'.db := by
    intro heq
    rw [heq]
    exact ⟨fun c hne => hne rfl, hserved⟩
  unfold do_POST at h
  -- an unknown certificate, a request too many, and a request that is handled
  cases hclient : request.fingerprint.bind (clients_by_fingerprint service) with
  | none =>
    rw [hclient] at h
    have heq := hsame _ w.requests h
    exact ⟨fun c hne => ((hunchanged heq).1 c hne).elim, fun _ _ _ _ => heq, (hunchanged heq).2⟩
  | some client =>
    rw [hclient] at h
    dsimp only at h
    rcases hallow : allow service.requests_per_minute w.requests client.id moment.monotonic with
      ⟨allowed, requests⟩
    rw [hallow] at h
    cases allowed with
    | false =>
      have heq := hsame _ requests h
      exact ⟨fun c hne => ((hunchanged heq).1 c hne).elim, fun _ _ _ _ => heq, (hunchanged heq).2⟩
    | true =>
      dsimp only at h
      rcases hpost : post service client request moment w.toWorld with ⟨reply, world⟩
      rw [hpost] at h
      obtain ⟨rfl, rfl⟩ := Prod.mk.inj h
      cases post_ended hserved hpost with
      | refused =>
        exact ⟨fun c hne => (hne rfl).elim, fun _ _ _ _ => rfl, hserved⟩
      | @stored raw path posted response _ hbody hread hrows hserved' hstatus haccepted =>
        obtain ⟨fingerprint, hfingerprint, hlookup⟩ := Option.bind_eq_some_iff.mp hclient
        obtain ⟨hregistered, hlisted⟩ := registered_of_lookup hlookup
        -- one client's call leaves the rows of the others
        have hothers : ∀ other, other ≠ client.id →
            client_rows world.db other = client_rows w.db other := by
          intro other hne
          rw [client_rows, hrows]
          exact congrArg rows (restrict_perform_other service.server.store w.db
            (request_call service.server client.toClientConfig posted moment.now) hne.symm)
        refine ⟨fun c hne => ?_, fun reply hreply hlow hhigh => ?_, hserved'⟩
        · have hc : client.id = c := by
            by_contra hne'
            exact hne (hothers c (fun h => hne' h.symm))
          refine ⟨⟨client, hregistered, hc, ⟨fingerprint, hlisted, hfingerprint⟩, raw, path, posted,
            hbody, hread, (read_request_ok hread).2, hrows⟩, fun other hother => ?_, response, rfl,
            hstatus, haccepted⟩
          exact hothers other (by rwa [hc])
        · cases hreply
          omega

/-! A write that is stored, and an enforcement at which SQLite fails. -/

def sample_service : Service where
  server := { store := Store.sample_env, max_depth_ge := three_le_max_depth }
  helper := sample_env
  clients := [{ id := "a".toList, allowed_jails := ["sshd".toList], cert_sha256 := ["f1".toList] }]

def sample_body : Text :=
  dumps Store.sample_env.floats (.obj [("events".toList, .arr [sample_event 1 "192.0.2.7".toList])])

def sample_request : HttpRequest where
  fingerprint := some "f1".toList
  path := "/v1/events".toList
  transfer_encoding := none
  content_lengths := [to_dec sample_body.length]
  content_type := "application/json".toList
  available := sample_body.length
  decoded := some sample_body

def sample_moment : Moment where
  monotonic := 0
  now := 1
  write_fails := false
  surroundings := { sample_surroundings with database_fails := fun call => call = .select }

def sample_state : State := ⟨⟨DB.initial, ⟨fun _ => [], []⟩, none⟩, fun _ => []⟩

theorem do_POST_consistent_sample : ∃ reply,
    (do_POST sample_service sample_request sample_moment sample_state).1 = some reply ∧
      (reply.status = 200 ∨ reply.status = 503) ∧ says_accepted reply = true := by
  have hone : (client_rows (do_POST sample_service sample_request sample_moment
      sample_state).2.db "a".toList).claims.rows.length = 1 := by
    decide +kernel
  have hzero : (client_rows sample_state.db "a".toList).claims.rows.length = 0 := rfl
  refine ((do_POST_consistent sample_service sample_request sample_moment sample_state _ _
    (Served.initial _) Prod.mk.eta.symm).1 "a".toList fun heq => ?_).2.2
  rw [heq, hzero] at hone
  cases hone

end F2bguard.Handler
