/-
`SenderStore` and `Worker` (`client/sender.py`): the sending side.

The store allocates sequence numbers, keeps the lifecycle of each claim and holds an
outbox of payloads as JSON texts. Its tables are a `DB` and its calls functions on it, as
for the receiver. The texts `uuid4` returns are arguments of the calls that draw them.

`enqueue_snapshot` reads claims before it opens its transaction, so another process can
commit in between. It is therefore given in two parts, `normalize_claim` for one turn
of the loop before the transaction and `commit_snapshot` for the transaction.

Of a payload the outbox keeps the printed text, and delivery reads it back and prints it again in
its envelope. The model does the same, so that what goes over the network is computed by the code
that computes it in the source and not remembered from the call that wrote the row.
-/
import F2bguard.PyJson
import F2bguard.Ipaddress
import F2bguard.Uuid
import F2bguard.Claims
import F2bguard.Tables

set_option autoImplicit false

namespace F2bguard.Sender

open F2bguard.PyText F2bguard.PyJson F2bguard.Ipaddress F2bguard.Uuid F2bguard.Claims
open F2bguard.Tables

def MAX_JAIL : ℕ := 128
def MAX_EVENT_BYTES : ℕ := 1000000
def MAX_PENDING : ℕ := 10000

/-- What a call of the sender raises. The hooks of Fail2Ban see any of them as a failed action. -/
inductive SenderError
  | value_error (message : Text)
  | snapshot_race
  | store_full
  /-- `OverflowError`: an integer beyond the 64 bits of SQLite -/
  | overflow_error
  /-- `sqlite3.IntegrityError` -/
  | integrity_error
  /-- what `json.loads` raises -/
  | decode_error
  deriving DecidableEq

def value_error {α : Type} (message : Text) : Except SenderError α := .error (.value_error message)

/-! ## Texts

The checks of the sender on what Fail2Ban hands it. They are its own and not the receiver's; where
both differ, a request can be written that the receiver refuses. -/

/-- `_uuid`: the text form, in lower case. -/
def _uuid (value field : Text) : Except SenderError Text :=
  if uuid_re value then .ok (lower value)
  else value_error (field ++ " must be a UUID".toList)

/-- The text the library prints for an address. Surrounding spaces are taken off, scope ids and
addresses of special purpose are refused. -/
def canonical_ip (value : Text) : Except SenderError Text :=
  let text := strip value
  if '%' ∈ text then value_error "IP must be a literal".toList
  else
    match ip_address text with
    | none => value_error "IP must be a literal".toList
    | some parsed =>
        if parsed.is_protected then value_error "special-purpose IP is not allowed".toList
        else .ok parsed.str

/-- The characters of a jail name. -/
def is_jail_char (c : Char) : Bool := is_id_start c || c = '_' || c = '.' || c = '-'

/-- A jail name may begin with any of its characters, a dot or a hyphen included. -/
def _jail (value : Text) : Except SenderError Text :=
  if value = [] ∨ MAX_JAIL < value.length then
    value_error "jail must be a non-empty short string".toList
  else if ¬ value.all is_jail_char then
    value_error "jail contains unsupported characters".toList
  else .ok value

/-! ## Payloads

What a row of the outbox says. All members are written, also those that never vary, and
`_json_bytes` sorts them by name. -/

/-- An event as `_event_payload` builds it. -/
structure EventPayload where
  event_id : Text
  seq : ℕ
  op : Op
  jail : Text
  ban_id : Text
  ip : Text
  deriving DecidableEq

/-- One claim of a snapshot; `permanent` is always true and `expires_at` always null. -/
structure SnapshotClaim where
  jail : Text
  ban_id : Text
  ip : Text
  deriving DecidableEq

/-- A snapshot: all active claims of the sender, with the number it was written under. -/
structure SnapshotPayload where
  snapshot_id : Text
  seq : ℕ
  claims : List SnapshotClaim
  deriving DecidableEq

def EventPayload.wire (p : EventPayload) : Json := .obj [
  ("event_id".toList, .str p.event_id),
  ("seq".toList, .int p.seq),
  ("op".toList, .str p.op.text),
  ("jail".toList, .str p.jail),
  ("ban_id".toList, .str p.ban_id),
  ("ip".toList, .str p.ip),
  ("permanent".toList, .bool true),
  ("expires_at".toList, .null)]

def SnapshotClaim.wire (c : SnapshotClaim) : Json := .obj [
  ("jail".toList, .str c.jail),
  ("ban_id".toList, .str c.ban_id),
  ("ip".toList, .str c.ip),
  ("permanent".toList, .bool true),
  ("expires_at".toList, .null)]

def SnapshotPayload.wire (p : SnapshotPayload) : Json := .obj [
  ("snapshot_id".toList, .str p.snapshot_id),
  ("seq".toList, .int p.seq),
  ("claims".toList, .arr (p.claims.map SnapshotClaim.wire))]

/-- What one row of the outbox carries. -/
inductive Payload
  | event (p : EventPayload)
  | snapshot (p : SnapshotPayload)
  deriving DecidableEq

def Payload.seq : Payload → ℕ
  | .event p => p.seq
  | .snapshot p => p.seq

/-- The `event_id` or `snapshot_id`. -/
def Payload.id : Payload → Text
  | .event p => p.event_id
  | .snapshot p => p.snapshot_id

def Payload.wire : Payload → Json
  | .event p => p.wire
  | .snapshot p => p.wire

/-- `_json_bytes`: sorted keys, no spaces, ASCII only. -/
def _json_bytes (floats : FloatText) (value : Json) : Text := dumps floats (sort_keys value)

/-! ## Tables

`claims` has a row for each pair that was ever banned, and `active` says whether it still is.
`outbox` has a row for each request that was written; a row stays after its delivery until it is
pruned. -/

structure ClaimRow where
  jail : Text
  ip : Text
  ban_id : Text
  /-- `CHECK(active IN (0,1))` -/
  active : Bool
  deriving DecidableEq

inductive Kind
  | event
  | snapshot
  deriving DecidableEq

def Payload.kind : Payload → Kind
  | .event _ => .event
  | .snapshot _ => .snapshot

structure OutboxRow where
  id : ℕ
  seq : ℕ
  kind : Kind
  event_id : Text
  payload : Text
  attempts : ℕ := 0
  available_at : ℚ := 0
  delivered_at : Option ℚ := none
  deriving DecidableEq

/-- `PRIMARY KEY(jail, ip)` -/
def ClaimRow.key (r : ClaimRow) : Text × Text := (r.jail, r.ip)

/-- `UNIQUE(jail, ban_id)` -/
def ClaimRow.ban_key (r : ClaimRow) : Text × Text := (r.jail, r.ban_id)

def ClaimRow.Compat (x y : ClaimRow) : Prop := x.key ≠ y.key ∧ x.ban_key ≠ y.ban_key

/-- `id` is the primary key, `seq` and `event_id` are unique. -/
def OutboxRow.Compat (x y : OutboxRow) : Prop :=
  x.id ≠ y.id ∧ x.seq ≠ y.seq ∧ x.event_id ≠ y.event_id

instance : DecidableRel ClaimRow.Compat :=
  fun x y => inferInstanceAs (Decidable (x.key ≠ y.key ∧ x.ban_key ≠ y.ban_key))

instance : DecidableRel OutboxRow.Compat :=
  fun x y => inferInstanceAs (Decidable (x.id ≠ y.id ∧ x.seq ≠ y.seq ∧ x.event_id ≠ y.event_id))

/-- The sender's database. `seq` and `last_error` are the rows of `metadata`, `next_id` is the
counter behind `AUTOINCREMENT`, which never gives an id twice, also after rows were deleted. -/
structure DB where
  seq : ℕ
  last_error : Option Text
  claims : Table ClaimRow ClaimRow.Compat
  outbox : Table OutboxRow OutboxRow.Compat
  next_id : ℕ

def DB.initial : DB := ⟨0, none, Table.empty, Table.empty, 1⟩

/-- The delays between attempts. -/
structure Backoff where
  initial_backoff : ℚ := 1
  max_backoff : ℚ := 300
  deriving DecidableEq

/-- The delay doubles with each attempt, up to the maximum; the exponent is bounded so that the
power stays small. -/
def Backoff.delay (b : Backoff) (attempts : ℕ) : ℚ :=
  min b.max_backoff (b.initial_backoff * 2 ^ min (attempts - 1) 20)

/-- What a sender runs with: its configuration, and the interpreter's way with JSON. -/
structure Env where
  floats : FloatText
  max_pending : ℕ := MAX_PENDING
  /-- checked by `__init__` -/
  max_pending_pos : 1 ≤ max_pending := by decide
  backoff : Backoff := {}
  /-- how deep a JSON text may nest; requests nest three deep, the limit is about 1000 -/
  max_depth : ℕ := 900
  max_depth_ge : 3 ≤ max_depth := by decide

/-- `BEGIN IMMEDIATE`, the body, then `COMMIT`, or `ROLLBACK` when the body raises. A call that
raises leaves the tables as they were, whatever its body had done by then. -/
def transaction {α : Type} (db : DB) (body : Except SenderError (α × DB)) :
    Except SenderError α × DB :=
  match body with
  | .error e => (.error e, db)
  | .ok (result, db') => (.ok result, db')

/-- A statement that would break a constraint raises `IntegrityError`. -/
def constrained {α : Type} : Option α → Except SenderError α
  | none => .error .integrity_error
  | some x => .ok x

/-! ## Statements

The SQL statements of the store, one definition each. -/

/-- `SELECT * FROM outbox WHERE delivered_at IS NULL` -/
def pending (db : DB) : List OutboxRow := db.outbox.rows.filter (fun r => r.delivered_at.isNone)

/-- Rows that wait for delivery count, delivered ones do not. -/
def _check_capacity (env : Env) (db : DB) : Except SenderError Unit :=
  if env.max_pending ≤ (pending db).length then .error .store_full else .ok ()

/-- `INSERT INTO claims … ON CONFLICT(jail,ip) DO UPDATE SET ban_id=excluded.ban_id, active=1` -/
def activate (db : DB) (jail ip ban_id : Text) : Except SenderError DB :=
  (constrained (db.claims.upsert (fun r => r.key = (jail, ip))
    (fun r => { r with ban_id, active := true }) ⟨jail, ip, ban_id, true⟩)).map
    (fun claims => { db with claims })

/-- No constraint mentions the column `active`. -/
theorem deactivate_compat (jail ip : Text) (x y : ClaimRow) (h : ClaimRow.Compat x y) :
    ClaimRow.Compat (if decide (x.key = (jail, ip)) then { x with active := false } else x)
      (if decide (y.key = (jail, ip)) then { y with active := false } else y) := by
  unfold ClaimRow.Compat at *
  split <;> split <;> exact h

/-- `UPDATE claims SET active=0 WHERE jail=? AND ip=?` -/
def deactivate (db : DB) (jail ip : Text) : DB :=
  { db with
    claims := db.claims.modify (fun r => r.key = (jail, ip)) (fun r => { r with active := false })
      (deactivate_compat jail ip) }

/-- `_next_seq` and the insertion of the payload that gets the number. Both are in one
transaction, so a number that was given is that of a row. SQLite has no integer beyond 64 bits. -/
def insert_outbox (env : Env) (db : DB) (payload : Payload) (now : ℚ) : Except SenderError DB :=
  if max_seq < payload.seq then .error .overflow_error
  else
    (constrained (db.outbox.insert { id := db.next_id, seq := payload.seq, kind := payload.kind
                                     event_id := payload.id
                                     payload := _json_bytes env.floats payload.wire
                                     available_at := now })).map
      (fun outbox => { db with seq := payload.seq, outbox, next_id := db.next_id + 1 })

/-! ## `enqueue`

The call behind `actionban` and `actionunban`. It compares what the hook says with the claim of
the pair and writes an event only when the claim turns over, so a hook that is called twice writes
once. -/

def parse_op (op : Text) : Except SenderError Op :=
  if op = "ban".toList then .ok .ban
  else if op = "unban".toList then .ok .unban
  else value_error "operation must be ban or unban".toList

/-- `_event_payload` checks once more what its caller has checked. -/
def _event_payload (event_uuid : Uuid4) (seq : ℕ) (op : Op) (jail ban_id ip : Text) :
    Except SenderError EventPayload := do
  let jail ← _jail jail
  let ban_id ← _uuid ban_id "ban_id".toList
  let ip ← canonical_ip ip
  return { event_id := event_uuid.text, seq, op, jail, ban_id, ip }

/-- The claim half of `enqueue`: the `ban_id` of the event and the claims it leaves, or `none`
when the event is a repetition. A ban of an active pair and an unban of any other are repetitions;
a ban draws a new `ban_id`, an unban takes that of the ban it ends. -/
def apply_hook (db : DB) (op : Op) (jail ip : Text) (ban_uuid : Uuid4) :
    Except SenderError (Option (Text × DB)) :=
  let row := db.claims.lookup ClaimRow.key (jail, ip)
  match op with
  | .ban =>
      if row.any (fun r => r.active) then .ok none
      else (activate db jail ip ban_uuid.text).map (fun db => some (ban_uuid.text, db))
  | .unban =>
      match row with
      | none => .ok none
      | some r => .ok (if r.active then some (r.ban_id, deactivate db jail ip) else none)

/-- The other half: the number, the payload and its row. A full outbox ends the call here, after
the claims were changed, and the rollback takes that change back. -/
def record_event (env : Env) (db : DB) (op : Op) (jail ban_id ip : Text) (event_uuid : Uuid4)
    (now : ℚ) : Except SenderError (Option EventPayload × DB) := do
  _check_capacity env db
  let payload ← _event_payload event_uuid (db.seq + 1) op jail ban_id ip
  let db ← insert_outbox env db (.event payload) now
  return (some payload, db)

/-- What `enqueue` does in its transaction. A repetition returns `None` without asking for room in
the outbox. -/
def enqueue_body (env : Env) (db : DB) (op : Op) (jail ip : Text) (now : ℚ)
    (ban_uuid event_uuid : Uuid4) : Except SenderError (Option EventPayload × DB) :=
  (apply_hook db op jail ip ban_uuid).bind (fun hook =>
    match hook with
    | none => .ok (none, db)
    | some (ban_id, db) => record_event env db op jail ban_id ip event_uuid now)

/-- The checks of `enqueue` before its transaction. -/
def enqueue_arguments (op jail ip : Text) : Except SenderError (Op × Text × Text) := do
  let jail ← _jail jail
  let ip ← canonical_ip ip
  let op ← parse_op op
  return (op, jail, ip)

/-- `enqueue`. A refused argument raises before the transaction begins. -/
def enqueue (env : Env) (db : DB) (op jail ip : Text) (now : ℚ) (ban_uuid event_uuid : Uuid4) :
    Except SenderError (Option EventPayload) × DB :=
  match enqueue_arguments op jail ip with
  | .error e => (.error e, db)
  | .ok (op, jail, ip) => transaction db (enqueue_body env db op jail ip now ban_uuid event_uuid)

/-! ## `enqueue_snapshot`

A snapshot replaces all claims by those that Fail2Ban lists. The claims are checked one by one
outside of the transaction, with a lookup for each; the transaction compares the sequence number
with the one the caller had read before it asked Fail2Ban, and raises `SnapshotRace` when a call
came between. -/

/-- One of the `claims` handed to `enqueue_snapshot`. `enumerate_permanent_jails` sets no
`ban_id`. -/
structure EnumeratedClaim where
  jail : Text
  ip : Text
  ban_id : Option Text := none
  deriving DecidableEq

/-- `(jail, ip)` -/
def SnapshotClaim.pair (c : SnapshotClaim) : Text × Text := (c.jail, c.ip)

/-- `_current_claim`: the `ban_id` of the active claim of a pair. -/
def _current_claim (db : DB) (jail ip : Text) : Option Text :=
  ((db.claims.lookup ClaimRow.key (jail, ip)).filter (fun r => r.active)).map ClaimRow.ban_id

/-- `(existing or _uuid(str(claim["ban_id"]), "ban_id")) if claim["ban_id"] else existing`. A
`ban_id` that is given is used only where there is none yet. -/
def given_ban_id (existing given : Option Text) : Except SenderError (Option Text) :=
  match given with
  | none => .ok existing
  | some [] => .ok existing
  | some ban_id =>
      match existing with
      | some existing => .ok (some existing)
      | none => (_uuid ban_id "ban_id".toList).map some

/-- One turn of the loop over the enumerated claims. Two entries that become the same pair refuse
the whole snapshot. -/
def normalize_claim (db : DB) (normalized : List SnapshotClaim) (claim : EnumeratedClaim)
    (ban_uuid : Uuid4) : Except SenderError (List SnapshotClaim) := do
  let jail ← _jail claim.jail
  let ip ← canonical_ip claim.ip
  if normalized.any (fun c => c.pair = (jail, ip)) then
    value_error "snapshot contains duplicate claim".toList
  else
    let ban_id ← given_ban_id (_current_claim db jail ip) claim.ban_id
    return normalized ++ [⟨jail, ban_id.getD ban_uuid.text, ip⟩]

/-- The loop, when no other process commits meanwhile. -/
def normalize (db : DB) : List SnapshotClaim → List (EnumeratedClaim × Uuid4) →
    Except SenderError (List SnapshotClaim)
  | normalized, [] => .ok normalized
  | normalized, (claim, ban_uuid) :: rest =>
      (normalize_claim db normalized claim ban_uuid).bind (fun normalized =>
        normalize db normalized rest)

/-- `existing_map`, read inside of the transaction: a claim that was written since its lookup
keeps its `ban_id`. -/
def active_rows (db : DB) : List ClaimRow := db.claims.rows.filter (fun r => r.active)

/-- `existing_map.get(key, claim["ban_id"])` -/
def reuse_ban_id (existing : List ClaimRow) (claim : SnapshotClaim) : SnapshotClaim :=
  match existing.find? (fun r => r.key = claim.pair) with
  | some r => { claim with ban_id := r.ban_id }
  | none => claim

/-- The loop over the normalized claims. -/
def activate_claims (db : DB) (claims : List SnapshotClaim) : Except SenderError DB :=
  claims.foldlM (fun db c => activate db c.jail c.ip c.ban_id) db

/-- The loop over the claims that are no longer there. -/
def deactivate_missing (db : DB) (existing : List ClaimRow) (claims : List SnapshotClaim) : DB :=
  (existing.filter (fun r => ¬ claims.any (fun c => c.pair = r.key))).foldl
    (fun db r => deactivate db r.jail r.ip) db

/-- `key=lambda item: (item["jail"], item["ip"])` -/
def by_jail_and_ip (a b : SnapshotClaim) : Prop :=
  a.jail < b.jail ∨ (a.jail = b.jail ∧ ¬ b.ip < a.ip)

instance : DecidableRel by_jail_and_ip :=
  fun a b => inferInstanceAs (Decidable (a.jail < b.jail ∨ (a.jail = b.jail ∧ ¬ b.ip < a.ip)))

/-- The transaction of a snapshot. It ends early when the number has changed or the outbox is
full. Else the pairs of the snapshot become active, all others inactive, and the payload lists
exactly the active ones. -/
def commit_snapshot_body (env : Env) (db : DB) (normalized : List SnapshotClaim)
    (expected_seq : Option ℕ) (now : ℚ) (snapshot_uuid : Uuid4) :
    Except SenderError (SnapshotPayload × DB) :=
  if expected_seq.any (fun seq => db.seq ≠ seq) then .error .snapshot_race
  else do
    _check_capacity env db
    let existing := active_rows db
    let claims := normalized.map (reuse_ban_id existing)
    let db ← activate_claims db claims
    let db := deactivate_missing db existing claims
    let snapshot : SnapshotPayload :=
      { snapshot_id := snapshot_uuid.text, seq := db.seq + 1
        claims := claims.insertionSort by_jail_and_ip }
    let db ← insert_outbox env db (.snapshot snapshot) now
    return (snapshot, db)

def commit_snapshot (env : Env) (db : DB) (normalized : List SnapshotClaim)
    (expected_seq : Option ℕ) (now : ℚ) (snapshot_uuid : Uuid4) :
    Except SenderError SnapshotPayload × DB :=
  transaction db (commit_snapshot_body env db normalized expected_seq now snapshot_uuid)

/-- `enqueue_snapshot`, when no other process commits meanwhile. With other processes it is a
sequence of steps, one for each turn of the loop and one for the transaction. -/
def enqueue_snapshot (env : Env) (db : DB) (claims : List (EnumeratedClaim × Uuid4))
    (expected_seq : Option ℕ) (now : ℚ) (snapshot_uuid : Uuid4) :
    Except SenderError SnapshotPayload × DB :=
  match normalize db [] claims with
  | .error e => (.error e, db)
  | .ok normalized => commit_snapshot env db normalized expected_seq now snapshot_uuid

/-! ## Delivery

One row is delivered at a time, the undelivered one with the least number, and no other until it
is. A row that cannot be delivered holds up all later ones, which is how the order of the numbers
is kept. -/

def prune_delivered (db : DB) : DB :=
  { db with outbox := db.outbox.delete (fun r => r.delivered_at.isSome) }

/-- The undelivered row with the least number, whether it is due or not. -/
def head (db : DB) : Option OutboxRow :=
  (pending db).find? (fun r => (pending db).all (fun r' => r.seq ≤ r'.seq))

/-- The head, when its time has come. A later row that is due does not overtake it. -/
def next_due (db : DB) (now : ℚ) : Option OutboxRow :=
  (head db).filter (fun r => r.available_at ≤ now)

def OutboxRow.delivered (now : ℚ) (r : OutboxRow) : OutboxRow := { r with delivered_at := some now }

def OutboxRow.retried (attempts : ℕ) (available_at : ℚ) (r : OutboxRow) : OutboxRow :=
  { r with attempts, available_at }

/-- An update that keeps the constrained columns. -/
theorem outbox_update_compat {f : OutboxRow → OutboxRow} (p : OutboxRow → Bool)
    (hf : ∀ r, (f r).id = r.id ∧ (f r).seq = r.seq ∧ (f r).event_id = r.event_id)
    (x y : OutboxRow) (h : OutboxRow.Compat x y) :
    OutboxRow.Compat (if p x then f x else x) (if p y then f y else y) := by
  obtain ⟨hx1, hx2, hx3⟩ := hf x
  obtain ⟨hy1, hy2, hy3⟩ := hf y
  unfold OutboxRow.Compat at *
  split <;> split <;> simp_all

/-- `UPDATE outbox SET delivered_at=? WHERE id=? AND delivered_at IS NULL` -/
def mark_delivered (db : DB) (row_id : ℕ) (now : ℚ) : DB :=
  { db with
    outbox := db.outbox.modify (fun r => r.id = row_id ∧ r.delivered_at.isNone)
      (OutboxRow.delivered now) (outbox_update_compat _ (fun _ => ⟨rfl, rfl, rfl⟩)) }

/-- `UPDATE outbox SET attempts=?, available_at=? WHERE id=? AND delivered_at IS NULL` -/
def mark_retry (db : DB) (row_id attempts : ℕ) (now delay : ℚ) : DB :=
  { db with
    outbox := db.outbox.modify (fun r => r.id = row_id ∧ r.delivered_at.isNone)
      (OutboxRow.retried attempts (now + delay))
      (outbox_update_compat _ (fun _ => ⟨rfl, rfl, rfl⟩)) }

/-- Only the first 128 characters are kept. -/
def set_last_error (db : DB) (error_type : Text) : DB :=
  { db with last_error := some (error_type.take 128) }

def clear_last_error (db : DB) : DB := { db with last_error := none }

/-- A dict from a list of items: a repeated key keeps its place and takes the new value. -/
def dict_of_pairs (items : List (Text × Json)) : List (Text × Json) :=
  items.foldl (fun dict item =>
    if dict.any (fun kv => kv.1 = item.1) then
      dict.map (fun kv => if kv.1 = item.1 then item else kv)
    else dict ++ [item]) []

/-- `json.loads(text)` without hooks. Its `ValueError`s are not told apart. -/
def plain_decoder (env : Env) : Decoder Unit where
  object_pairs_hook items := .ok (.obj (dict_of_pairs items))
  parse_constant name := .ok (.float
    (if name = "NaN".toList then .nan
      else if name = "Infinity".toList then .inf false
      else .inf true))
  parse_float := env.floats.parse
  max_depth := env.max_depth
  decode_error := ()
  digits_error := ()
  depth_error := ()

/-- The argument `process_once` hands to `send`. -/
def request_value (kind : Kind) (payload : Json) : Json :=
  match kind with
  | .event => .obj [("events".toList, .arr [payload])]
  | .snapshot => payload

/-- What goes over the network. -/
structure Message where
  path : Path
  body : Text
  deriving DecidableEq

/-- `name in payload` -/
def has_key (payload : Json) (name : Text) : Bool :=
  match payload with
  | .obj items => (get_item items name).isSome
  | _ => false

/-- `HTTPSClient.send` up to the request it opens. An event that comes without its envelope gets
one; a request over the limit raises `ValueError` before a connection is made, so that it is never
sent and its row is tried again like any other. -/
def send_request (env : Env) (payload : Json) : Except SenderError Message :=
  let is_snapshot := has_key payload "snapshot_id".toList
  let body := _json_bytes env.floats
    (if is_snapshot || has_key payload "events".toList then payload
      else .obj [("events".toList, .arr [payload])])
  if MAX_EVENT_BYTES < body.length then value_error "request is too large".toList
  else .ok ⟨if is_snapshot then .snapshot else .events, body⟩

/-- The request of a row, as far as the network. A text that cannot be decoded raises out of
`process_once`; no call writes one. -/
def row_request (env : Env) (row : OutboxRow) : Except SenderError Json :=
  match loads (plain_decoder env) row.payload with
  | .error _ => .error .decode_error
  | .ok payload => .ok (request_value row.kind payload)

/-- The end of `process_once`, for a row whose delivery succeeded or failed. -/
def finish_attempt (env : Env) (db : DB) (row : OutboxRow) (now : ℚ) (delivered : Bool) : DB :=
  if delivered then clear_last_error (mark_delivered db row.id now)
  else
    set_last_error
      (mark_retry db row.id (row.attempts + 1) now (env.backoff.delay (row.attempts + 1)))
      "delivery failure".toList

/-- `Worker.process_once`, when nothing else happens meanwhile. `exchange` says whether the reply
to a message acknowledges it; a lost request or reply does not. It returns whether a row was
delivered, and a failure of any kind is recorded with the row and as `last_error`. -/
def process_once (env : Env) (db : DB) (now : ℚ) (exchange : Message → Bool) :
    Except SenderError (Bool × DB) :=
  match next_due db now with
  | none => .ok (false, db)
  | some row =>
      (row_request env row).map (fun request =>
        let delivered := match send_request env request with
          | .error _ => false
          | .ok message => exchange message
        (delivered, finish_attempt env db row now delivered))

end F2bguard.Sender
