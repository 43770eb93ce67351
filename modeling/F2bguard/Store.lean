/-
`ClaimStore` (`store.py`, second part): the receiver's durable state.

The five tables are a `DB`; a call is a function from a `DB` to what it returns or
raises and the `DB` it leaves. A call that writes runs in one transaction, so it is
given by its body, `Except StoreError (result × DB)`: when the body raises, the
rollback leaves the tables as they were. The clock is an argument of every call.

`claims` refers to `client_state`; the check is made where rows are inserted, and no
statement deletes from `client_state`.

The order of the checks in a body is that of the source, because it decides which of two faults of
one request is reported. Each body has exits that write nothing (a conflict, a duplicate, a request that is stale) and one that writes; the
latter is a definition of its own, `apply_fresh_events` and `apply_fresh_snapshot`. The proofs go
the same way: one lemma for each exit, and the rest of the development asks only which exit was
taken.
-/
import F2bguard.Claims
import F2bguard.Tables

set_option autoImplicit false

namespace F2bguard.Store

open F2bguard.PyText F2bguard.PyJson F2bguard.Ipaddress F2bguard.Claims F2bguard.Tables

/-! ## Tables

The rows have the columns of `_SCHEMA` under their names. The constraints of a table are the
second argument of its type, so that a `DB` which breaks one cannot be written down, and a
statement that would break one has no result. -/

/-- A row of `client_state`: the last number that was accepted from the client, and when. -/
structure ClientState where
  client_id : Text
  last_seq : ℕ
  updated_at : ℚ
  deriving DecidableEq

/-- A row of `claims`: what a client holds at present. An unban deletes the row, so there is no
column for whether a claim is active. -/
structure ClaimRow where
  client_id : Text
  jail : Text
  ban_id : Text
  ip : Text
  /-- `CHECK (permanent IN (0,1))` -/
  permanent : Fin 2
  expires_at : Option ℚ
  updated_at : ℚ
  deriving DecidableEq

/-- A row of `events`, one of the two histories. It keeps the hash of the content and not the
content, which is enough to tell a repetition from a reuse of the id. -/
structure EventRow where
  client_id : Text
  event_id : Text
  seq : ℕ
  payload_hash : Text
  op : Op
  jail : Text
  ban_id : Text
  ip : Text
  received_at : ℚ
  deriving DecidableEq

/-- A row of `snapshots`, the other history. -/
structure SnapshotRow where
  client_id : Text
  snapshot_id : Text
  seq : ℕ
  payload_hash : Text
  received_at : ℚ
  deriving DecidableEq

/-- The only row of `enforcement_state`, which the schema inserts with its defaults. It is written
by the enforcer and read by the status page, and no claim depends on it. -/
structure EnforcementState where
  desired_digest : Option Text := none
  applied_digest : Option Text := none
  applied_ipv4 : ℕ := 0
  applied_ipv6 : ℕ := 0
  last_attempt : Option ℚ := none
  last_success : Option ℚ := none
  last_error : Option Text := none
  deriving DecidableEq

/-- `PRIMARY KEY (client_id, jail, ban_id)` -/
def ClaimRow.key (r : ClaimRow) : Text × Text × Text := (r.client_id, r.jail, r.ban_id)

/-- `PRIMARY KEY (client_id, event_id)` -/
def EventRow.id_key (r : EventRow) : Text × Text := (r.client_id, r.event_id)

/-- `UNIQUE (client_id, seq)` -/
def EventRow.seq_key (r : EventRow) : Text × ℕ := (r.client_id, r.seq)

/-- `PRIMARY KEY (client_id, snapshot_id)` -/
def SnapshotRow.id_key (r : SnapshotRow) : Text × Text := (r.client_id, r.snapshot_id)

/-- `UNIQUE (client_id, seq)` -/
def SnapshotRow.seq_key (r : SnapshotRow) : Text × ℕ := (r.client_id, r.seq)

/-- `client_id TEXT PRIMARY KEY`: no two rows of one client. -/
def ClientState.Compat (x y : ClientState) : Prop := x.client_id ≠ y.client_id

/-- No two claims of a client with the same jail and ban id. Two clients, or two jails of one
client, may claim the same address. -/
def ClaimRow.Compat (x y : ClaimRow) : Prop := x.key ≠ y.key

/-- Both constraints of `events`: neither the id nor the number of an event is used twice by a
client. -/
def EventRow.Compat (x y : EventRow) : Prop := x.id_key ≠ y.id_key ∧ x.seq_key ≠ y.seq_key

/-- Both constraints of `snapshots`. A snapshot and an event may have the same number as far as
the tables go; that they never do is a matter of `last_seq`. -/
def SnapshotRow.Compat (x y : SnapshotRow) : Prop :=
  x.id_key ≠ y.id_key ∧ x.seq_key ≠ y.seq_key

instance : DecidableRel ClientState.Compat :=
  fun x y => inferInstanceAs (Decidable (x.client_id ≠ y.client_id))

instance : DecidableRel ClaimRow.Compat := fun x y => inferInstanceAs (Decidable (x.key ≠ y.key))

instance : DecidableRel EventRow.Compat :=
  fun x y => inferInstanceAs (Decidable (x.id_key ≠ y.id_key ∧ x.seq_key ≠ y.seq_key))

instance : DecidableRel SnapshotRow.Compat :=
  fun x y => inferInstanceAs (Decidable (x.id_key ≠ y.id_key ∧ x.seq_key ≠ y.seq_key))

/-- The database. Its tables carry the proof that their constraints hold. -/
structure DB where
  client_state : Table ClientState ClientState.Compat
  claims : Table ClaimRow ClaimRow.Compat
  events : Table EventRow EventRow.Compat
  snapshots : Table SnapshotRow SnapshotRow.Compat
  enforcement_state : EnforcementState

/-- The tables `_initialize` creates. -/
def DB.initial : DB := ⟨Table.empty, Table.empty, Table.empty, Table.empty, {}⟩

/-! ## Calls

A call is read from the top: what is checked before the transaction starts, the body of the
transaction with its exits, and the statements of the exit that writes. -/

/-- The newest events of a client that are kept, whatever their age. -/
def MAX_HISTORY_EVENTS_PER_CLIENT : ℕ := 100000
/-- The same for snapshots. -/
def MAX_HISTORY_SNAPSHOTS_PER_CLIENT : ℕ := 1000
/-- The most claims that all clients together may hold. -/
def MAX_TOTAL_CLAIMS : ℕ := 100000

/-- What the calls take from their surroundings: the hash, how a float is printed, the
configured retention and the caps on the histories. -/
structure Env where
  sha256 : Text → Text
  floats : FloatText
  history_days : ℕ := 90
  max_history_events : ℕ := MAX_HISTORY_EVENTS_PER_CLIENT
  max_history_snapshots : ℕ := MAX_HISTORY_SNAPSHOTS_PER_CLIENT

/-- What a call raises. `StoreConflict` and `StoreLimit` are the classes of the source;
`ValidationError` is raised here for what the server has checked before. -/
inductive StoreError
  | conflict (message : Text)
  | limit (message : Text)
  | validation (message : Text)
  /-- `sqlite3.IntegrityError` -/
  | integrity
  deriving DecidableEq

/-- `StoreLimit("claims_per_client limit exceeded")` -/
def claims_per_client_exceeded : StoreError := .limit "claims_per_client limit exceeded".toList

/-- `StoreLimit("global claim limit exceeded")` -/
def global_limit_exceeded : StoreError := .limit "global claim limit exceeded".toList

/-- What a write answers. `accepted` is set on every result, so it is the other two flags that
tell whether something was written: neither is set for a fresh request, `duplicate` for one that
was applied before, `stale` for one whose number is used up although it is not stored. -/
structure ApplyResult where
  accepted : Bool
  duplicate : Bool := false
  stale : Bool := false
  last_seq : ℕ := 0
  deriving DecidableEq

/-- `BEGIN IMMEDIATE`, the body, then `COMMIT`, or `ROLLBACK` when the body raises. -/
def transaction {α : Type} (db : DB) (body : Except StoreError (α × DB)) :
    Except StoreError α × DB :=
  match body with
  | .error e => (.error e, db)
  | .ok (result, db') => (.ok result, db')

/-- The result of a statement, `sqlite3.IntegrityError` when it breaks a constraint. -/
def constrained {α : Type} : Option α → Except StoreError α
  | none => .error .integrity
  | some x => .ok x

/-- `_payload_hash` -/
def payload_hash (env : Env) (value : Json) : Text :=
  env.sha256 (dumps env.floats (sort_keys value))

/-- `INSERT OR IGNORE INTO client_state(client_id,last_seq,updated_at) VALUES (?,0,?)`. It comes
first in every transaction that writes, so the client exists when its claims are inserted and its
number is read. -/
def ensure_client (db : DB) (client_id : Text) (now : ℚ) : DB :=
  match db.client_state.insert ⟨client_id, 0, now⟩ with
  | some client_state => { db with client_state }
  | none => db

/-- `SELECT last_seq FROM client_state WHERE client_id=?` -/
def last_seq (db : DB) (client_id : Text) : ℕ :=
  ((db.client_state.lookup ClientState.client_id client_id).map ClientState.last_seq).getD 0

/-- No constraint mentions the columns this update sets. -/
theorem set_last_seq_compat (client_id : Text) (seq : ℕ) (now : ℚ) (x y : ClientState)
    (h : ClientState.Compat x y) :
    ClientState.Compat
      (if decide (x.client_id = client_id) then { x with last_seq := seq, updated_at := now } else x)
      (if decide (y.client_id = client_id) then { y with last_seq := seq, updated_at := now }
        else y) := by
  unfold ClientState.Compat at *
  split <;> split <;> exact h

/-- `UPDATE client_state SET last_seq=?,updated_at=? WHERE client_id=?`, the last statement of a
fresh request. -/
def set_last_seq (db : DB) (client_id : Text) (seq : ℕ) (now : ℚ) : DB :=
  { db with
    client_state := db.client_state.modify (fun r => r.client_id = client_id)
      (fun r => { r with last_seq := seq, updated_at := now })
      (set_last_seq_compat client_id seq now) }

/-- `SELECT COUNT(*) FROM claims WHERE client_id=?` -/
def claim_count (db : DB) (client_id : Text) : ℕ :=
  (db.claims.rows.filter (fun r => r.client_id = client_id)).length

/-- `SELECT COUNT(*) FROM claims` -/
def total_claims (db : DB) : ℕ := db.claims.rows.length

/-- `ORDER BY received_at DESC, seq DESC` -/
def newest_first {ρ : Type} (received_at : ρ → ℚ) (seq : ρ → ℕ) (a b : ρ) : Prop :=
  received_at b < received_at a ∨ (received_at b = received_at a ∧ seq b ≤ seq a)

instance {ρ : Type} (received_at : ρ → ℚ) (seq : ρ → ℕ) :
    DecidableRel (newest_first received_at seq) :=
  fun a b => inferInstanceAs (Decidable (received_at b < received_at a ∨
    (received_at b = received_at a ∧ seq b ≤ seq a)))

/-- `… ORDER BY received_at DESC,seq DESC LIMIT -1 OFFSET cap` -/
def beyond {ρ : Type} (received_at : ρ → ℚ) (seq : ρ → ℕ) (cap : ℕ) (rows : List ρ) : List ρ :=
  (rows.insertionSort (newest_first received_at seq)).drop cap

/-- The events of the client beyond its newest ones are deleted. It runs in the transaction of
every fresh batch, so the history has no time to grow. -/
def truncate_events (env : Env) (db : DB) (client_id : Text) : DB :=
  let excess := beyond EventRow.received_at EventRow.seq env.max_history_events
    (db.events.rows.filter (fun r => r.client_id = client_id))
  { db with events := db.events.delete (fun r => r ∈ excess) }

/-- The same for the snapshots of the client. -/
def truncate_snapshots (env : Env) (db : DB) (client_id : Text) : DB :=
  let excess := beyond SnapshotRow.received_at SnapshotRow.seq env.max_history_snapshots
    (db.snapshots.rows.filter (fun r => r.client_id = client_id))
  { db with snapshots := db.snapshots.delete (fun r => r ∈ excess) }

/-- The reference from `claims` to `client_state`. -/
def client_exists (db : DB) (client_id : Text) : Bool :=
  (db.client_state.lookup ClientState.client_id client_id).isSome

/-- `int(bool(permanent))` -/
def int_of_bool (permanent : Bool) : Fin 2 := if permanent then 1 else 0

/-! ### `apply_events` -/

/-- `SELECT ip FROM claims WHERE client_id=? AND jail=? AND ban_id=?` -/
def claim_ip (db : DB) (client_id jail ban_id : Text) : Option Text :=
  (db.claims.lookup ClaimRow.key (client_id, jail, ban_id)).map ClaimRow.ip

/-- The claim of a ban. An event without `permanent` is not permanent. -/
def ban_row (client_id : Text) (now : ℚ) (event : Event) : ClaimRow :=
  ⟨client_id, event.jail, event.ban_id, event.ip, int_of_bool (event.permanent.getD false),
    event.expires_at, now⟩

/-- `INSERT INTO claims … ON CONFLICT(client_id,jail,ban_id) DO UPDATE SET …`. The update sets all
columns but those of the key, so a repeated ban renews the time of its claim. The foreign key is
checked for the insertion. -/
def upsert_claim (db : DB) (row : ClaimRow) : Except StoreError DB :=
  if client_exists db row.client_id then
    (constrained (db.claims.upsert (fun r => r.key = row.key)
      (fun r => { r with
        ip := row.ip, permanent := row.permanent, expires_at := row.expires_at
        updated_at := row.updated_at }) row)).map
      (fun claims => { db with claims })
  else .error .integrity

/-- The entry of the history for an event. The hash is that of `Event.wire`, the canonical form,
so it does not depend on how the client spelled the event. -/
def event_row (env : Env) (client_id : Text) (now : ℚ) (event : Event) : EventRow :=
  ⟨client_id, event.event_id, event.seq, payload_hash env event.wire, event.op, event.jail,
    event.ban_id, event.ip, now⟩

/-- **The claim half of one turn of the loop.** A ban writes its claim, an unban deletes it. Both
refuse an event that names a stored claim with another address, and then the whole batch is rolled
back. An unban whose claim is not there deletes nothing and is no fault: the client may have
released it with a snapshot. -/
def apply_op (client_id : Text) (now : ℚ) (db : DB) (event : Event) : Except StoreError DB :=
  let current := claim_ip db client_id event.jail event.ban_id
  match event.op with
  | .ban =>
      if current.any (· ≠ event.ip) then .error (.conflict "ban identity cannot change IP".toList)
      else upsert_claim db (ban_row client_id now event)
  | .unban =>
      if current.any (· ≠ event.ip) then
        .error (.conflict "unban IP does not match the existing claim".toList)
      else
        .ok { db with
          claims := db.claims.delete (fun r =>
            r.key = (client_id, event.jail, event.ban_id) ∧ r.ip = event.ip) }

/-- **One turn of the loop over the events.** The claim first, then the entry of the history. The
insertion cannot break a constraint for a batch that has passed the checks of the body
(`no_constraint_broken`), but the loop does not know that, so it stays an outcome here. -/
def apply_event (env : Env) (client_id : Text) (now : ℚ) (db : DB) (event : Event) :
    Except StoreError DB :=
  (apply_op client_id now db event).bind (fun db =>
    (constrained (db.events.insert (event_row env client_id now event))).map
      (fun events => { db with events }))

/-- `SELECT seq,payload_hash FROM events WHERE client_id=? AND event_id=?` -/
def prior_event (db : DB) (client_id : Text) (event : Event) : Option EventRow :=
  db.events.lookup EventRow.id_key (client_id, event.event_id)

/-- A stored event under the same id that is not this event: another number or another content. -/
def event_reused (env : Env) (db : DB) (client_id : Text) (event : Event) : Bool :=
  (prior_event db client_id event).any (fun prior =>
    prior.seq ≠ event.seq ∨ prior.payload_hash ≠ payload_hash env event.wire)

/-- The limits. They are checked after the loop, on what the batch leaves, so a batch may go over
a limit in between, and an unban makes room for a ban that comes before it. -/
def check_limits (db : DB) (client_id : Text) (claims_limit : ℕ) : Except StoreError Unit :=
  if claims_limit < claim_count db client_id then
    .error claims_per_client_exceeded
  else if MAX_TOTAL_CLAIMS < total_claims db then
    .error global_limit_exceeded
  else .ok ()

/-- **The exit that writes.** The loop, the limits, the number of the client and the cap on its
history. It raises when a turn of the loop does, or when a limit is exceeded at the end; the
transaction then undoes all of it, the number included. -/
def apply_fresh_events (env : Env) (db : DB) (client_id : Text) (events : List Event)
    (new_seq claims_limit : ℕ) (now : ℚ) : Except StoreError (ApplyResult × DB) :=
  (events.foldlM (apply_event env client_id now) db).bind (fun db =>
    (check_limits db client_id claims_limit).map (fun _ =>
      ({ accepted := true, last_seq := new_seq },
        truncate_events env (set_last_seq db client_id new_seq now) client_id)))

/-- **The transaction, for a batch from `first` to `last`.** There are six exits, and the first
that applies is taken. An id that is stored for other content is a conflict, whatever the numbers
are. A batch that starts at or below the stored number has been handled before: it must not reach
beyond that number, and it is a duplicate when every event of it is in the history and stale when
one is not, usually because it has been pruned. Above the number every id must be new. What is left is applied.

Neither a duplicate nor a stale batch changes a row of the client, so both are answered with
success and the sender may forget them. -/
def apply_events_body (env : Env) (db : DB) (client_id : Text) (events : List Event)
    (first last : Event) (claims_limit : ℕ) (now : ℚ) : Except StoreError (ApplyResult × DB) :=
  let db := ensure_client db client_id now
  let seq := last_seq db client_id
  if events.any (event_reused env db client_id) then
    .error (.conflict "event_id was reused with different content".toList)
  else if first.seq ≤ seq then
    -- it starts in what is stored and ends beyond it
    if seq < last.seq then
      .error (.conflict "event batch crosses the stored sequence boundary".toList)
    -- it ends there too; the history tells a repetition from what is no longer or not at all in it
    else if events.all (fun e => (prior_event db client_id e).isSome) then
      .ok ({ accepted := true, duplicate := true, last_seq := seq }, db)
    else .ok ({ accepted := true, stale := true, last_seq := seq }, db)
  else if events.any (fun e => (prior_event db client_id e).isSome) then
    .error (.conflict "new event batch contains a previously used event_id".toList)
  else apply_fresh_events env db client_id events last.seq claims_limit now

/-- **`ClaimStore.apply_events`.** Two faults are found before a transaction starts: an empty
batch, and numbers that do not increase strictly. The server refuses both earlier, with the same
class of error. -/
def apply_events (env : Env) (db : DB) (client_id : Text) (events : List Event)
    (claims_limit : ℕ) (now : ℚ) : Except StoreError ApplyResult × DB :=
  match events with
  | [] => (.error (.validation "events must not be empty".toList), db)
  | first :: rest =>
      if ¬ seqs_increase (first :: rest) then
        (.error (.validation "event seq values must strictly increase".toList), db)
      else
        transaction db (apply_events_body env db client_id (first :: rest) first
          ((first :: rest).getLast (List.cons_ne_nil _ _)) claims_limit now)

/-! ### `apply_snapshot` -/

/-- What the hash of a snapshot is taken of: its id, its number and its claims in their canonical
form, in the order they came. -/
def snapshot_payload (snapshot_id : Text) (seq : ℕ) (claims : List Claim) : Json := .obj [
  ("snapshot_id".toList, .str snapshot_id),
  ("seq".toList, .int seq),
  ("claims".toList, .arr (claims.map Claim.wire))]

/-- The row of a claim of a snapshot. -/
def claim_row (client_id : Text) (now : ℚ) (claim : Claim) : ClaimRow :=
  ⟨client_id, claim.jail, claim.ban_id, claim.ip, int_of_bool claim.permanent,
    claim.expires_at, now⟩

/-- `INSERT INTO claims`. There is no `ON CONFLICT` here: two claims of a snapshot with one jail
and one ban id are refused when the snapshot is parsed, and the old claims are gone by now. -/
def insert_claim (db : DB) (row : ClaimRow) : Except StoreError DB :=
  if client_exists db row.client_id then
    (constrained (db.claims.insert row)).map (fun claims => { db with claims })
  else .error .integrity

/-- `DELETE FROM claims WHERE client_id=?` -/
def delete_claims (db : DB) (client_id : Text) : DB :=
  { db with claims := db.claims.delete (fun r => r.client_id = client_id) }

/-- **The exit that writes.** A snapshot says what the client holds, so the claims of the client
are replaced and not merged. Only the addresses are compared before: a claim that keeps its jail
and ban id must keep its address. The limit of the client has been checked on the list; the global
one is checked on the tables, after the insertions. -/
def apply_fresh_snapshot (env : Env) (db : DB) (client_id snapshot_id : Text) (seq : ℕ)
    (claims : List Claim) (now : ℚ) : Except StoreError (ApplyResult × DB) :=
  if claims.any (fun c => (claim_ip db client_id c.jail c.ban_id).any (· ≠ c.ip)) then
    .error (.conflict "snapshot cannot rebind a claim identity to a new IP".toList)
  else
    ((claims.map (claim_row client_id now)).foldlM insert_claim
        (delete_claims db client_id)).bind (fun db =>
      if MAX_TOTAL_CLAIMS < total_claims db then
        .error global_limit_exceeded
      else
        (constrained (db.snapshots.insert ⟨client_id, snapshot_id, seq,
          payload_hash env (snapshot_payload snapshot_id seq claims), now⟩)).map
          (fun snapshots =>
            ({ accepted := true, last_seq := seq },
              truncate_snapshots env (set_last_seq { db with snapshots } client_id seq now)
                client_id)))

/-- **The transaction.** An id that is stored for another number or content is a conflict. A
number that is used up makes the snapshot a duplicate when its id is still in the history and
stale when it is not; otherwise it is applied. There is no case for a batch that crosses the
stored number, since a snapshot has only one. -/
def apply_snapshot_body (env : Env) (db : DB) (client_id snapshot_id : Text) (seq : ℕ)
    (claims : List Claim) (now : ℚ) : Except StoreError (ApplyResult × DB) :=
  let db := ensure_client db client_id now
  let stored := last_seq db client_id
  let prior := db.snapshots.lookup SnapshotRow.id_key (client_id, snapshot_id)
  if prior.any (fun p => p.seq ≠ seq ∨
      p.payload_hash ≠ payload_hash env (snapshot_payload snapshot_id seq claims)) then
    .error (.conflict "snapshot_id was reused with different content".toList)
  else if seq ≤ stored then
    if prior.isSome then .ok ({ accepted := true, duplicate := true, last_seq := stored }, db)
    else .ok ({ accepted := true, stale := true, last_seq := stored }, db)
  else apply_fresh_snapshot env db client_id snapshot_id seq claims now

/-- **`ClaimStore.apply_snapshot`.** The limit on the claims of a client is checked on the list
and before the transaction, so even a repetition is refused once the limit is below its length. -/
def apply_snapshot (env : Env) (db : DB) (client_id snapshot_id : Text) (seq : ℕ)
    (claims : List Claim) (claims_limit : ℕ) (now : ℚ) : Except StoreError ApplyResult × DB :=
  if claims_limit < claims.length then
    (.error claims_per_client_exceeded, db)
  else transaction db (apply_snapshot_body env db client_id snapshot_id seq claims now)

/-! ### Reading and housekeeping -/

/-- `permanent=1 AND (expires_at IS NULL OR expires_at>?)` -/
def is_effective (boundary : ℚ) (r : ClaimRow) : Bool :=
  r.permanent = 1 ∧ r.expires_at.all (boundary < ·)

/-- The two families of a list of addresses, each sorted and without repetition. The
source collects the compressed literals in sets and sorts them by address. -/
def family_lists (addresses : List IPAddress) : List Text × List Text :=
  let family := fun version => ((addresses.filter (·.version = version)).dedup.insertionSort
    (fun a b => a.toNat ≤ b.toNat)).map IPAddress.str
  (family .four, family .six)

/-- `effective_ips`, `none` when a stored text is not an address. -/
def effective_ips (db : DB) (boundary : ℚ) : Option (List Text × List Text) :=
  ((db.claims.rows.filter (is_effective boundary)).mapM (fun r => ip_address r.ip)).map
    family_lists

/-- `client_effective_ips`: the same for the claims of one client. -/
def client_effective_ips (db : DB) (client_id : Text) (boundary : ℚ) :
    Option (List Text × List Text) :=
  ((db.claims.rows.filter (fun r => r.client_id = client_id ∧ is_effective boundary r)).mapM
    (fun r => ip_address r.ip)).map family_lists

/-- `record_enforcement_attempt`. The columns of the last success and of the last error stay. -/
def record_enforcement_attempt (db : DB) (desired_digest : Text) (now : ℚ) : DB :=
  { db with
    enforcement_state := { db.enforcement_state with
      desired_digest := some desired_digest, last_attempt := some now } }

/-- `record_enforcement_success`: every column is set, and the error is cleared. -/
def record_enforcement_success (db : DB) (desired_digest : Text) (applied_digest : Option Text)
    (ipv4 ipv6 : ℕ) (now : ℚ) : DB :=
  { db with
    enforcement_state := {
      desired_digest := some desired_digest, applied_digest
      applied_ipv4 := ipv4, applied_ipv6 := ipv6
      last_attempt := some now, last_success := some now, last_error := none } }

/-- `record_enforcement_failure`. What was applied last stays, and so does the time of it; of the
message 1024 characters are kept. -/
def record_enforcement_failure (db : DB) (desired_digest error : Text) (now : ℚ) : DB :=
  { db with
    enforcement_state := { db.enforcement_state with
      desired_digest := some desired_digest, last_attempt := some now
      last_error := some (error.take 1024) } }

/-- `prune_history`: the number of deleted rows, and the tables. It deletes from the histories by
age and leaves claims and numbers alone, which is why a request that was handled can later be
stale. -/
def prune_history (env : Env) (db : DB) (now : ℚ) : ℕ × DB :=
  let boundary := now - env.history_days * 86400
  let events := db.events.delete (fun r => r.received_at < boundary)
  let snapshots := db.snapshots.delete (fun r => r.received_at < boundary)
  ((db.events.rows.length - events.rows.length)
    + (db.snapshots.rows.length - snapshots.rows.length),
    { db with events, snapshots })

end F2bguard.Store
