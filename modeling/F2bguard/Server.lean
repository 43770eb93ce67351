/-
`GuardHandler.do_POST` (`server.py`): from the body of a write to its response.

A write is read (`strict_json_loads`), validated, checked against the jails of its client
and handed to the store; then the tables are enforced and the outcome is reported. The
client was authenticated by its certificate before, and the rate limiter and the headers
are left to the caller. How the enforcement ends is an argument here, since it runs after
the store has committed and cannot change what was stored.

A write has many ways to end and they are told apart by exceptions in the source. Here each part
returns what it would raise: `LoadError` for the decoder, `Raised` for the validators,
`StoreError` for the store, and `refusal` is the list of `except` clauses. An exception that none
of them catches is the answer `none`: the handler dies and the client gets no response.
-/
import F2bguard.Requests

set_option autoImplicit false

namespace F2bguard.Server

open F2bguard.PyText F2bguard.PyJson F2bguard.Claims F2bguard.Store

/-! ## `strict_json_loads`

The decoder is that of `PyJson` with two hooks: one refuses an object that repeats a key, the
other the constants for numbers that are not finite. Two exceptions of the decoder are neither
`JSONDecodeError` nor `UnicodeDecodeError`, and the function does not catch them. -/

/-- What `strict_json_loads` raises. -/
inductive LoadError
  | config_error (message : Text)
  /-- the `ValueError` of an integer with too many digits, which is not caught -/
  | value_error
  /-- `RecursionError`, which is not caught either -/
  | recursion_error
  deriving DecidableEq

/-- The first key that stands in the list a second time. -/
def first_repeated : List Text → List Text → Option Text
  | _, [] => none
  | seen, key :: keys => if key ∈ seen then some key else first_repeated (key :: seen) keys

/-- `_unique_object(pairs)`. The message names the first key that comes a second time. -/
def _unique_object (pairs : List (Text × Json)) : Except LoadError Json :=
  match first_repeated [] (pairs.map Prod.fst) with
  | some key => .error (.config_error ("duplicate JSON key: ".toList ++ key))
  | none => .ok (.obj pairs)

/-- The decoder `strict_json_loads` sets up. -/
def strict_decoder (floats : FloatText) (max_depth : ℕ) : Decoder LoadError where
  object_pairs_hook := _unique_object
  parse_constant value := .error (.config_error ("invalid JSON number: ".toList ++ value))
  parse_float := floats.parse
  max_depth := max_depth
  decode_error := .config_error "invalid JSON".toList
  digits_error := .value_error
  depth_error := .recursion_error

theorem first_repeated_eq_none {seen keys : List Text} (hkeys : keys.Nodup)
    (hseen : ∀ k ∈ keys, k ∉ seen) : first_repeated seen keys = none := by
  induction keys generalizing seen with
  | nil => rfl
  | cons key keys ih =>
    rw [List.nodup_cons] at hkeys
    rw [first_repeated, if_neg (hseen key List.mem_cons_self)]
    refine ih hkeys.2 (fun k hk hmem => ?_)
    rcases List.mem_cons.mp hmem with rfl | hmem
    · exact hkeys.1 hk
    · exact hseen k (List.mem_cons_of_mem _ hk) hmem

theorem strict_decoder_keepsObjects (floats : FloatText) (max_depth : ℕ) :
    (strict_decoder floats max_depth).KeepsObjects := by
  intro items h
  simp only [strict_decoder, _unique_object]
  rw [first_repeated_eq_none h (fun k _ => List.not_mem_nil)]

/-! ## Writes

From the decoded body to the store. The checks come in the order of the source: the members of the
body, the validators, and the jails that the client may use; only then is the store called. A
request that is refused before that has not touched it. -/

/-- The limits of the configuration that concern a write. -/
structure Limits where
  body_bytes : ℕ := 1048576
  events_per_request : ℕ := 1000
  claims_per_client : ℕ := 10000
  deriving DecidableEq

/-- A client, as far as a write needs it. -/
structure ClientConfig where
  id : Text
  allowed_jails : List Text
  deriving DecidableEq

/-- What a receiver runs with. -/
structure Env where
  store : Store.Env
  limits : Limits := {}
  /-- how deep a JSON text may nest; requests nest three deep, the limit is about 1000 -/
  max_depth : ℕ := 900
  max_depth_ge : 3 ≤ max_depth := by decide

/-- What is raised while a write is validated and stored. `do_POST` catches all of it but one
constructor of `Raised`. -/
inductive Refused
  | permission (message : Text)
  | raised (error : Raised)
  | store (error : StoreError)
  deriving DecidableEq

/-- `set(raw) == fields`: the members are these and no others. -/
def fields_equal (raw : List (Text × Json)) (fields : List Text) : Bool :=
  fields.all (fun name => (get_item raw name).isSome)
    && raw.all (fun item => decide (item.1 ∈ fields))

/-- `_outer`, with the names sorted. -/
def _outer (raw : Json) (fields : List Text) : Except Refused (List (Text × Json)) :=
  match raw with
  | .obj items =>
      if fields_equal items fields then .ok items
      else .error (.raised (.validation_error
        ("request must contain exactly: ".toList ++ comma_list fields)))
  | _ => .error (.raised (.validation_error
      ("request must contain exactly: ".toList ++ comma_list fields)))

/-- `_allowed(client, jails)`. One jail that the client may not use refuses the whole request. -/
def _allowed (client : ClientConfig) (jails : List Text) : Except Refused Unit :=
  if jails.any (fun jail => jail ∉ client.allowed_jails) then
    .error (.permission "jail is not allowed for this client".toList)
  else .ok ()

/-- **The checks of `do_POST` on a decoded body.** For each endpoint the members, the validator
and the jails. What is returned is valid, so the store is never called with something else. -/
def read_request (env : Env) (client : ClientConfig) (path : Path) (raw : Json) :
    Except Refused Request :=
  match path with
  | .events => do
      let body ← _outer raw ["events".toList]
      let events ← (validate_events (field body "events".toList)
        env.limits.events_per_request).mapError .raised
      _allowed client (events.map Event.jail)
      return .events events
  | .snapshot => do
      let body ← _outer raw ["claims".toList, "seq".toList, "snapshot_id".toList]
      let (snapshot_id, seq, claims) ← (validate_snapshot (field body "snapshot_id".toList)
        (field body "seq".toList) (field body "claims".toList)
        env.limits.claims_per_client).mapError .raised
      _allowed client (claims.map Claim.jail)
      return .snapshot snapshot_id seq claims

/-- The call a request becomes. -/
def request_call (env : Env) (client : ClientConfig) (request : Request) (now : ℚ) : Call where
  client_id := client.id
  request := request
  claims_limit := env.limits.claims_per_client
  now := now

/-- Reading a body and storing what it says. A body that is refused leaves the store alone; a call
that raises has been rolled back. -/
def store_write (env : Env) (client : ClientConfig) (db : DB) (path : Path) (raw : Json)
    (now : ℚ) : Except Refused ApplyResult × DB :=
  match read_request env client path raw with
  | .error e => (.error e, db)
  | .ok request =>
      let (result, db) := (request_call env client request now).perform env.store db
      (result.mapError .store, db)

/-! ## Responses

The text of a response is its status and a JSON value. `refusal` and `_finish_write` between them
give every response to a write. -/

/-- What `_json` sends. Headers are left out; they do not depend on the request. -/
structure Response where
  status : ℕ
  body : Json

/-- `self._json(status, {"error": message})`. -/
def error_response (status : ℕ) (message : Text) : Response :=
  ⟨status, .obj [("error".toList, .str message)]⟩

/-- **The `except` clauses of `do_POST`.** A jail that is not allowed is 403, a conflict 409,
everything else that the client can do something about 400; a broken constraint is reported like
any error of SQLite, as 503. `OverflowError` is in no clause: there is no response. -/
def refusal : Refused → Option Response
  | .permission message => some (error_response 403 message)
  | .raised (.validation_error message) => some (error_response 400 message)
  | .raised .overflow_error => none
  | .store (.validation message) => some (error_response 400 message)
  | .store (.limit message) => some (error_response 400 message)
  | .store (.conflict message) => some (error_response 409 message)
  | .store .integrity => some ⟨503, .obj [("accepted".toList, .bool false),
      ("error".toList, .str "durable store unavailable".toList)]⟩

/-- **`_finish_write`**, for an enforcement that failed with a message or left a number of
effective addresses. A failed enforcement is 503 although the write is stored; the body then says
that it is durable, unless the request was stale and nothing of it is known to be stored. -/
def _finish_write (result : ApplyResult) (enforced : Except Text ℕ) : Response :=
  match enforced with
  | .error message => ⟨503, .obj [("accepted".toList, .bool result.accepted),
      ("durable".toList, .bool (result.duplicate || !result.stale)),
      ("enforced".toList, .bool false), ("stale".toList, .bool result.stale),
      ("error".toList, .str message)]⟩
  | .ok count => ⟨200, .obj [("accepted".toList, .bool result.accepted),
      ("duplicate".toList, .bool result.duplicate), ("stale".toList, .bool result.stale),
      ("last_seq".toList, .int result.last_seq), ("effective_ip_count".toList, .int count)]⟩

/-- **The end of `_body`: the size check and the decoder.** A body that is too large is refused
before it is decoded. Of what the decoder raises, a `ConfigError` is answered; the other two
exceptions leave the handler. -/
def _body (env : Env) (text : Text) : Except (Option Response) Json :=
  if env.limits.body_bytes < text.length then
    .error (some (error_response 413 "request body too large".toList))
  else
    match loads (strict_decoder env.store.floats env.max_depth) text with
    | .ok raw => .ok raw
    | .error (.config_error message) => .error (some (error_response 400 message))
    | .error _ => .error none

/-- **`do_POST` for an authenticated client.** `enforced` tells how the enforcement after a stored
write ends. There is no enforcement for a write that was refused, and there is one for a duplicate
and for a stale one, so a client that repeats its request gets the tables repaired. -/
def do_POST (env : Env) (client : ClientConfig) (db : DB) (path : Path) (text : Text) (now : ℚ)
    (enforced : DB → Except Text ℕ) : Option Response × DB :=
  match _body env text with
  | .error response => (response, db)
  | .ok raw =>
      match store_write env client db path raw now with
      | (.error e, db) => (refusal e, db)
      | (.ok result, db) => (some (_finish_write result (enforced db)), db)

end F2bguard.Server
