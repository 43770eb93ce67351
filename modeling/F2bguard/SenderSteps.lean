/-
What the calls of the sender's store do to its tables.

Claims are seen as a map from pairs `(jail, ip)` to rows. A call of `enqueue` is refused,
or repeats what the claims say already and changes nothing, or turns the claim of its pair
over and appends one row to the outbox (`enqueue_outcome`). The transaction of a snapshot
is refused, or makes exactly its pairs active and appends one row (`commit_outcome`). All
later results are derived from these two.
-/
import F2bguard.Payloads

set_option autoImplicit false

namespace F2bguard.Sender

open F2bguard.PyText F2bguard.PyJson F2bguard.Ipaddress F2bguard.Uuid F2bguard.Claims
open F2bguard.Tables
open F2bguard.Store (map_eq_ok bind_eq_ok)

/-! ## Claims as a map

The table has at most one row for a pair, so looking a pair up is all that needs to be known of
it. Each statement is described by what it does to one pair and that it leaves all others. -/

theorem claims_pair_unique : Table.Unique ClaimRow.Compat ClaimRow.key := fun _ _ h => h.1

theorem claims_ban_unique : Table.Unique ClaimRow.Compat ClaimRow.ban_key := fun _ _ h => h.2

theorem outbox_id_unique : Table.Unique OutboxRow.Compat OutboxRow.id := fun _ _ h => h.1

/-- The row of a pair. -/
def claim_of (db : DB) (pair : Text × Text) : Option ClaimRow := db.claims.lookup ClaimRow.key pair

/-- The pair has an active claim. -/
def is_active (db : DB) (pair : Text × Text) : Bool := (claim_of db pair).any ClaimRow.active

theorem claim_of_eq_some {db : DB} {pair : Text × Text} {r : ClaimRow} :
    claim_of db pair = some r ↔ r ∈ db.claims.rows ∧ r.key = pair :=
  Table.lookup_eq_some claims_pair_unique

theorem constrained_eq_ok {α : Type} {o : Option α} {x : α} : constrained o = .ok x ↔ o = some x := by
  cases o <;> simp [constrained]

theorem activate_spec {db db' : DB} {jail ip ban_id : Text}
    (h : activate db jail ip ban_id = .ok db') :
    ∃ claims, db' = { db with claims } ∧
      ∀ pair, claim_of db' pair =
        if (jail, ip) = pair then some ⟨jail, ip, ban_id, true⟩ else claim_of db pair := by
  obtain ⟨claims, hclaims, rfl⟩ := map_eq_ok.mp h
  rw [constrained_eq_ok] at hclaims
  refine ⟨claims, rfl, fun pair => ?_⟩
  have hlookup := Table.lookup_upsert claims_pair_unique
    (f := fun r => { r with ban_id, active := true }) (r := ⟨jail, ip, ban_id, true⟩)
    (by exact fun _ hx => hx) hclaims pair
  rw [claim_of, hlookup]
  have hkey : (⟨jail, ip, ban_id, true⟩ : ClaimRow).key = (jail, ip) := rfl
  rw [hkey]
  split
  · cases hrow : db.claims.lookup ClaimRow.key (jail, ip) with
    | none => rfl
    | some r =>
      have hr := (Table.lookup_some_mem hrow).2
      obtain ⟨hjail, hip⟩ := Prod.mk.inj hr
      simp [hjail, hip]
  · rfl

theorem claim_of_deactivate (db : DB) (jail ip : Text) (pair : Text × Text) :
    claim_of (deactivate db jail ip) pair =
      if (jail, ip) = pair then (claim_of db pair).map (fun r => { r with active := false })
      else claim_of db pair :=
  Table.lookup_modify claims_pair_unique (by exact fun _ hx => hx) (deactivate_compat jail ip) pair

/-! ## The outbox

A call that is accepted appends one row and takes the next number; nothing else is changed. The
two calls that write share this part. -/

/-- The row a payload is stored in. -/
def payload_row (env : Env) (db : DB) (p : Payload) (now : ℚ) : OutboxRow where
  id := db.next_id
  seq := p.seq
  kind := p.kind
  event_id := p.id
  payload := _json_bytes env.floats p.wire
  available_at := now

theorem holds_payload_row (env : Env) (db : DB) (p : Payload) (now : ℚ) :
    Holds env (payload_row env db p now) p := ⟨rfl, rfl, rfl, rfl⟩

/-- A payload that got the next number and a row at the end of the outbox. There was room for it,
and the number was within the 64 bits of SQLite. -/
structure Inserted (env : Env) (db : DB) (p : Payload) (now : ℚ) (db' : DB) : Prop where
  capacity : (pending db).length < env.max_pending
  seq : p.seq = db.seq + 1
  seq_le : p.seq ≤ max_seq
  next_seq : db'.seq = db.seq + 1
  outbox : db'.outbox.rows = db.outbox.rows ++ [payload_row env db p now]
  next_id : db'.next_id = db.next_id + 1
  last_error : db'.last_error = db.last_error

theorem insert_outbox_spec {env : Env} {db db' : DB} {p : Payload} {now : ℚ}
    (h : insert_outbox env db p now = .ok db') :
    p.seq ≤ max_seq ∧ ∃ outbox, db' = { db with seq := p.seq, outbox, next_id := db.next_id + 1 } ∧
      outbox.rows = db.outbox.rows ++ [payload_row env db p now] := by
  unfold insert_outbox at h
  split at h
  · cases h
  · rename_i hseq
    obtain ⟨outbox, hinsert, rfl⟩ := map_eq_ok.mp h
    exact ⟨not_lt.mp hseq, outbox, rfl, Table.insert_eq_some.mp (constrained_eq_ok.mp hinsert)⟩

theorem check_capacity_ok {env : Env} {db : DB} {u : Unit} (h : _check_capacity env db = .ok u) :
    (pending db).length < env.max_pending := by
  unfold _check_capacity at h
  split at h
  · cases h
  · rename_i hlt
    exact not_le.mp hlt

/-! ## `enqueue`

Three ways to end, and in the first two the tables are as before. -/

/-- The `ban_id` of an event: a ban draws a new one, an unban ends the one that is active. -/
def BanIdFor (db : DB) (op : Op) (jail ip : Text) (ban_uuid : Uuid4) (ban_id : Text) : Prop :=
  match op with
  | .ban => is_active db (jail, ip) = false ∧ ban_id = ban_uuid.text
  | .unban => claim_of db (jail, ip) = some ⟨jail, ip, ban_id, true⟩

/-- A call of `enqueue` that turned the claim of its pair over. -/
structure Recorded (env : Env) (db : DB) (op : Op) (jail ip : Text) (now : ℚ)
    (ban_uuid event_uuid : Uuid4) (p : EventPayload) (db' : DB) : Prop where
  payload : p = ⟨event_uuid.text, db.seq + 1, op, jail, p.ban_id, ip⟩
  ban_id : BanIdFor db op jail ip ban_uuid p.ban_id
  claims : ∀ pair, claim_of db' pair =
    if (jail, ip) = pair then some ⟨jail, ip, p.ban_id, op = .ban⟩ else claim_of db pair
  inserted : Inserted env db (.event p) now db'

/-- How a call of `enqueue` with canonical arguments ends. A repetition says that the claim was
already what the hook asks for; a refusal can come before the claims were looked at or after they
were changed, and both leave the tables. -/
inductive HookOutcome (env : Env) (db : DB) (op : Op) (jail ip : Text) (now : ℚ)
    (ban_uuid event_uuid : Uuid4) : Except SenderError (Option EventPayload) → DB → Prop
  | refused (e : SenderError) : HookOutcome env db op jail ip now ban_uuid event_uuid (.error e) db
  | repeated (h : is_active db (jail, ip) = decide (op = .ban)) :
      HookOutcome env db op jail ip now ban_uuid event_uuid (.ok none) db
  | recorded {p : EventPayload} {db' : DB}
      (h : Recorded env db op jail ip now ban_uuid event_uuid p db') :
      HookOutcome env db op jail ip now ban_uuid event_uuid (.ok (some p)) db'

/-- What the claim half of a call says and does. -/
theorem apply_hook_spec {db : DB} {op : Op} {jail ip : Text} {ban_uuid : Uuid4}
    {hook : Option (Text × DB)} (h : apply_hook db op jail ip ban_uuid = .ok hook) :
    (hook = none ∧ is_active db (jail, ip) = decide (op = .ban)) ∨
      ∃ ban_id claims, hook = some (ban_id, { db with claims }) ∧
        BanIdFor db op jail ip ban_uuid ban_id ∧
        ∀ pair, claim_of { db with claims } pair =
          if (jail, ip) = pair then some ⟨jail, ip, ban_id, op = .ban⟩ else claim_of db pair := by
  have hlookup : db.claims.lookup ClaimRow.key (jail, ip) = claim_of db (jail, ip) := rfl
  unfold apply_hook at h
  rw [hlookup] at h
  cases op with
  | ban =>
    dsimp only at h
    split at h
    · rename_i hactive
      cases h
      exact Or.inl ⟨rfl, hactive⟩
    · rename_i hactive
      obtain ⟨db', hactivate, rfl⟩ := map_eq_ok.mp h
      obtain ⟨claims, rfl, hclaims⟩ := activate_spec hactivate
      exact Or.inr ⟨ban_uuid.text, claims, rfl, ⟨by simpa [is_active] using hactive, rfl⟩, hclaims⟩
  | unban =>
    dsimp only at h
    cases hrow : claim_of db (jail, ip) with
    | none =>
      rw [hrow] at h
      cases h
      exact Or.inl ⟨rfl, by rw [is_active, hrow]; rfl⟩
    | some r =>
      rw [hrow] at h
      dsimp only at h
      split at h
      · rename_i hactive
        cases h
        obtain ⟨-, hkey⟩ := claim_of_eq_some.mp hrow
        obtain ⟨rfl, rfl⟩ := Prod.mk.inj hkey
        refine Or.inr ⟨r.ban_id, _, rfl, ?_, fun pair => ?_⟩
        · rw [BanIdFor, hrow, ← hactive]
        · have hde := claim_of_deactivate db r.jail r.ip pair
          change claim_of (deactivate db r.jail r.ip) pair = _
          rw [hde]
          by_cases hpair : (r.jail, r.ip) = pair
          · rw [if_pos hpair, if_pos hpair, ← hpair, hrow]
            rfl
          · rw [if_neg hpair, if_neg hpair]
      · rename_i hactive
        cases h
        exact Or.inl ⟨rfl, by rw [is_active, hrow]; simpa using hactive⟩

theorem event_payload_ok {event_uuid : Uuid4} {seq : ℕ} {op : Op} {jail ban_id ip : Text}
    {p : EventPayload} (hjail : ValidJail jail) (hip : CanonicalIP ip)
    (h : _event_payload event_uuid seq op jail ban_id ip = .ok p) :
    p = ⟨event_uuid.text, seq, op, jail, lower ban_id, ip⟩ := by
  unfold _event_payload at h
  rw [_jail_eq_ok.mpr ⟨hjail, rfl⟩, canonical_ip_self hip] at h
  dsimp only [bind, Except.bind] at h
  unfold _uuid at h
  split at h
  · cases h
  · rename_i ban_id' hban
    split at hban
    · cases hban
      cases h
      rfl
    · cases hban

/-- The claims hold what the checks of the calls let through, so the payloads built from them pass
the checks again. -/
structure ClaimRow.Valid (r : ClaimRow) : Prop where
  jail : ValidJail r.jail
  ban_id : Canonical r.ban_id
  ip : CanonicalIP r.ip

def ClaimsValid (db : DB) : Prop := ∀ r ∈ db.claims.rows, r.Valid

theorem record_event_spec {env : Env} {db db' : DB} {op : Op} {jail ban_id ip : Text}
    {event_uuid : Uuid4} {now : ℚ} {result : Option EventPayload} (hjail : ValidJail jail)
    (hip : CanonicalIP ip) (hban : Canonical ban_id)
    (h : record_event env db op jail ban_id ip event_uuid now = .ok (result, db')) :
    ∃ p : EventPayload, result = some p ∧ p = ⟨event_uuid.text, db.seq + 1, op, jail, ban_id, ip⟩ ∧
      (∀ pair, claim_of db' pair = claim_of db pair) ∧ Inserted env db (.event p) now db' := by
  obtain ⟨_, hcapacity, h⟩ := bind_eq_ok.mp h
  obtain ⟨p, hp, h⟩ := bind_eq_ok.mp h
  obtain ⟨db1, hinsert, h⟩ := bind_eq_ok.mp h
  obtain ⟨rfl, rfl⟩ := Prod.mk.inj (Except.ok.inj h)
  have hpayload := event_payload_ok hjail hip hp
  rw [lower_of_canonical hban] at hpayload
  obtain ⟨hle, outbox, rfl, hrows⟩ := insert_outbox_spec hinsert
  have hseq : (Payload.event p).seq = db.seq + 1 := by
    rw [hpayload]
    rfl
  exact ⟨p, rfl, hpayload, fun _ => rfl,
    ⟨check_capacity_ok hcapacity, hseq, hle, hseq, hrows, rfl, rfl⟩⟩

theorem enqueue_body_outcome (env : Env) (op : Op) (now : ℚ) (ban_uuid event_uuid : Uuid4)
    {db : DB} {jail ip : Text} (hjail : ValidJail jail) (hip : CanonicalIP ip)
    (hvalid : ClaimsValid db) :
    HookOutcome env db op jail ip now ban_uuid event_uuid
      (transaction db (enqueue_body env db op jail ip now ban_uuid event_uuid)).1
      (transaction db (enqueue_body env db op jail ip now ban_uuid event_uuid)).2 := by
  cases hbody : enqueue_body env db op jail ip now ban_uuid event_uuid with
  | error e => exact HookOutcome.refused e
  | ok r =>
    obtain ⟨result, db'⟩ := r
    obtain ⟨hook, hhook, hrest⟩ := bind_eq_ok.mp hbody
    rcases apply_hook_spec hhook with ⟨rfl, hactive⟩ | ⟨ban_id, claims, rfl, hban, hclaims⟩
    · obtain ⟨rfl, rfl⟩ := Prod.mk.inj (Except.ok.inj hrest)
      exact HookOutcome.repeated hactive
    · dsimp only at hrest
      have hcanonical : Canonical ban_id := by
        cases op with
        | ban =>
          rw [hban.2]
          exact ban_uuid.is_canonical
        | unban => exact (hvalid _ (claim_of_eq_some.mp hban).1).ban_id
      obtain ⟨p, rfl, hp, hsame, hinserted⟩ := record_event_spec hjail hip hcanonical hrest
      have hban_id : p.ban_id = ban_id := by rw [hp]
      subst hban_id
      refine HookOutcome.recorded ⟨hp, hban, fun pair => (hsame pair).trans (hclaims pair), ?_⟩
      obtain ⟨h1, h2, h3, h4, h5, h6, h7⟩ := hinserted
      exact ⟨h1, h2, h3, h4, h5, h6, h7⟩

/-- What the arguments of `enqueue` have to be for the call to reach its transaction. -/
theorem enqueue_arguments_ok {op jail ip : Text} {op' : Op} {jail' ip' : Text}
    (h : enqueue_arguments op jail ip = .ok (op', jail', ip')) :
    ValidJail jail ∧ jail' = jail ∧ canonical_ip ip = .ok ip' ∧ CanonicalIP ip' ∧
      op = op'.text := by
  obtain ⟨jail1, hjail, h⟩ := bind_eq_ok.mp h
  obtain ⟨ip1, hip, h⟩ := bind_eq_ok.mp h
  obtain ⟨op1, hop, h⟩ := bind_eq_ok.mp h
  cases h
  obtain ⟨hvalid, rfl⟩ := _jail_eq_ok.mp hjail
  refine ⟨hvalid, rfl, hip, canonical_ip_eq_ok hip, ?_⟩
  unfold parse_op at hop
  split at hop
  · rename_i heq
    cases hop
    exact heq
  · split at hop
    · rename_i heq
      cases hop
      exact heq
    · cases hop

/-- **What a hook does.** Every call of `enqueue` is refused before its transaction or ends as
`HookOutcome` says, for the pair its arguments stand for in canonical form. -/
theorem enqueue_outcome {env : Env} {db db' : DB} {op jail ip : Text} {now : ℚ}
    {ban_uuid event_uuid : Uuid4} {result : Except SenderError (Option EventPayload)}
    (hvalid : ClaimsValid db) (h : enqueue env db op jail ip now ban_uuid event_uuid = (result, db')) :
    (∃ e, result = .error e ∧ db' = db) ∨
      ∃ op' ip', op = op'.text ∧ ValidJail jail ∧ canonical_ip ip = .ok ip' ∧ CanonicalIP ip' ∧
        HookOutcome env db op' jail ip' now ban_uuid event_uuid result db' := by
  unfold enqueue at h
  cases hargs : enqueue_arguments op jail ip with
  | error e =>
    rw [hargs] at h
    obtain ⟨rfl, rfl⟩ := Prod.mk.inj h
    exact Or.inl ⟨e, rfl, rfl⟩
  | ok args =>
    obtain ⟨op', jail', ip'⟩ := args
    rw [hargs] at h
    obtain ⟨hjail, rfl, hip, hcip, hop⟩ := enqueue_arguments_ok hargs
    refine Or.inr ⟨op', ip', hop, hjail, hip, hcip, ?_⟩
    have hout := enqueue_body_outcome env op' now ban_uuid event_uuid hjail hcip hvalid
    dsimp only at h
    rw [h] at hout
    exact hout

/-! ## `enqueue_snapshot`

The turns of the loop, and then the transaction. What the loop looked up is a suggestion only: the
transaction looks each pair up again. -/

/-- The active row of a pair. -/
def active_claim (db : DB) (pair : Text × Text) : Option ClaimRow :=
  (claim_of db pair).filter ClaimRow.active

theorem current_claim_eq (db : DB) (jail ip : Text) :
    _current_claim db jail ip = (active_claim db (jail, ip)).map ClaimRow.ban_id := rfl

theorem active_claim_eq_some {db : DB} {pair : Text × Text} {r : ClaimRow} :
    active_claim db pair = some r ↔ claim_of db pair = some r ∧ r.active = true := by
  rw [active_claim, Option.filter_eq_some_iff]

theorem active_claim_valid {db : DB} (hvalid : ClaimsValid db) {pair : Text × Text} {r : ClaimRow}
    (h : active_claim db pair = some r) : r.Valid :=
  hvalid r (claim_of_eq_some.mp (active_claim_eq_some.mp h).1).1

/-- The claim that one turn of the loop adds. -/
structure Normalized (db : DB) (before : List SnapshotClaim) (claim : EnumeratedClaim)
    (ban_uuid : Uuid4) (c : SnapshotClaim) : Prop where
  jail : c.jail = claim.jail
  ip : canonical_ip claim.ip = .ok c.ip
  valid : c.Valid
  new : ∀ x ∈ before, x.pair ≠ c.pair
  ban_id : claim.ban_id = none →
    c.ban_id = (active_claim db c.pair).elim ban_uuid.text ClaimRow.ban_id

theorem given_ban_id_valid {db : DB} (hvalid : ClaimsValid db) {jail ip : Text}
    {given ban_id : Option Text}
    (h : given_ban_id (_current_claim db jail ip) given = .ok ban_id) :
    ∀ b, ban_id = some b → Canonical b := by
  have hexisting : ∀ b, _current_claim db jail ip = some b → Canonical b := by
    intro b hb
    rw [current_claim_eq] at hb
    obtain ⟨r, hr, rfl⟩ := Option.map_eq_some_iff.mp hb
    exact (active_claim_valid hvalid hr).ban_id
  unfold given_ban_id at h
  intro b hb
  subst hb
  split at h
  · exact hexisting b (Except.ok.inj h)
  · exact hexisting b (Except.ok.inj h)
  · split at h
    · rename_i existing hexists
      cases h
      exact hexisting b hexists
    · obtain ⟨b', hb', hsome⟩ := map_eq_ok.mp h
      cases hsome
      unfold _uuid at hb'
      split at hb'
      · rename_i hre
        cases hb'
        exact canonical_lower hre
      · cases hb'

theorem normalize_claim_spec {db : DB} {before after : List SnapshotClaim} {claim : EnumeratedClaim}
    {ban_uuid : Uuid4} (hvalid : ClaimsValid db)
    (h : normalize_claim db before claim ban_uuid = .ok after) :
    ∃ c, after = before ++ [c] ∧ Normalized db before claim ban_uuid c := by
  obtain ⟨jail, hjail, h⟩ := bind_eq_ok.mp h
  obtain ⟨ip, hip, h⟩ := bind_eq_ok.mp h
  obtain ⟨hvj, rfl⟩ := _jail_eq_ok.mp hjail
  split at h
  · cases h
  rename_i hnew
  obtain ⟨ban_id, hban, h⟩ := bind_eq_ok.mp h
  cases h
  refine ⟨_, rfl, rfl, hip, ⟨hvj, ?_, canonical_ip_eq_ok hip⟩, ?_, ?_⟩
  · cases ban_id with
    | none => exact ban_uuid.is_canonical
    | some b => exact given_ban_id_valid hvalid hban b rfl
  · intro x hx hpair
    rw [Bool.not_eq_true, List.any_eq_false] at hnew
    have := hnew x hx
    rw [decide_eq_true_eq] at this
    exact this hpair
  · intro hnone
    rw [hnone] at hban
    cases hban
    rw [current_claim_eq]
    change Option.getD (Option.map ClaimRow.ban_id (active_claim db (claim.jail, ip))) ban_uuid.text
      = (active_claim db (claim.jail, ip)).elim ban_uuid.text ClaimRow.ban_id
    cases active_claim db (claim.jail, ip) <;> rfl

/-- The lookup in `existing_map`. -/
theorem find_active_rows (db : DB) (pair : Text × Text) :
    (active_rows db).find? (fun r => r.key = pair) = active_claim db pair := by
  have h := Table.lookup_delete claims_pair_unique db.claims (fun r => !r.active) pair
  simp only [Bool.not_not] at h
  rw [active_claim, claim_of, ← h, Table.lookup, Table.rows_delete, active_rows]
  simp only [Bool.not_not]

theorem reuse_ban_id_eq (db : DB) (c : SnapshotClaim) :
    reuse_ban_id (active_rows db) c =
      { c with ban_id := (active_claim db c.pair).elim c.ban_id ClaimRow.ban_id } := by
  rw [reuse_ban_id, find_active_rows]
  cases active_claim db c.pair <;> rfl

@[simp] theorem reuse_ban_id_pair (existing : List ClaimRow) (c : SnapshotClaim) :
    (reuse_ban_id existing c).pair = c.pair := by
  unfold reuse_ban_id
  split <;> rfl

theorem activate_claims_spec {claims : List SnapshotClaim} : ∀ {db db' : DB},
    (claims.map SnapshotClaim.pair).Nodup → activate_claims db claims = .ok db' →
      ∃ t, db' = { db with claims := t } ∧
        (∀ c ∈ claims, claim_of db' c.pair = some ⟨c.jail, c.ip, c.ban_id, true⟩) ∧
        ∀ pair, pair ∉ claims.map SnapshotClaim.pair → claim_of db' pair = claim_of db pair := by
  induction claims with
  | nil =>
    intro db db' _ h
    cases h
    exact ⟨db.claims, rfl, by simp, fun _ _ => rfl⟩
  | cons c cs ih =>
    intro db db' hnodup h
    rw [List.map_cons, List.nodup_cons] at hnodup
    rw [activate_claims, List.foldlM_cons] at h
    obtain ⟨db1, hactivate, h⟩ := bind_eq_ok.mp h
    obtain ⟨t1, rfl, hone⟩ := activate_spec hactivate
    obtain ⟨t, rfl, hclaims, hothers⟩ := ih hnodup.2 h
    refine ⟨t, rfl, ?_, fun pair hpair => ?_⟩
    · intro x hx
      rcases List.mem_cons.mp hx with rfl | hx
      · rw [hothers x.pair hnodup.1, hone, if_pos (show (x.jail, x.ip) = x.pair from rfl)]
      · exact hclaims x hx
    · rw [List.map_cons, List.mem_cons, not_or] at hpair
      rw [hothers pair hpair.2, hone, if_neg (by exact fun h => hpair.1 h.symm)]

theorem foldl_deactivate (rows : List ClaimRow) (pair : Text × Text) : ∀ db : DB,
    claim_of (rows.foldl (fun db r => deactivate db r.jail r.ip) db) pair =
      if pair ∈ rows.map ClaimRow.key then
        (claim_of db pair).map (fun r => { r with active := false })
      else claim_of db pair := by
  induction rows with
  | nil => intro db; simp
  | cons r rows ih =>
    intro db
    rw [List.foldl_cons, ih, claim_of_deactivate, List.map_cons]
    by_cases hpair : r.key = pair
    · have hkey : (r.jail, r.ip) = pair := hpair
      subst hpair
      rw [if_pos hkey, if_pos List.mem_cons_self, Option.map_map]
      split <;> rfl
    · have hkey : ¬ (r.jail, r.ip) = pair := hpair
      rw [if_neg hkey]
      have hmem : pair ∈ r.key :: rows.map ClaimRow.key ↔ pair ∈ rows.map ClaimRow.key := by
        rw [List.mem_cons]
        exact or_iff_right (fun h => hpair h.symm)
      simp only [hmem]

theorem deactivate_missing_other (db : DB) (existing : List ClaimRow)
    (claims : List SnapshotClaim) :
    ∃ t, deactivate_missing db existing claims = { db with claims := t } := by
  unfold deactivate_missing
  generalize existing.filter _ = rows
  induction rows generalizing db with
  | nil => exact ⟨db.claims, rfl⟩
  | cons r rows ih =>
    obtain ⟨t, ht⟩ := ih (deactivate db r.jail r.ip)
    exact ⟨t, ht⟩

/-- Which claims are active after the two loops of the transaction. -/
theorem claim_of_deactivate_missing (db : DB) {db1 : DB} {claims : List SnapshotClaim}
    (hclaims : ∀ c ∈ claims, claim_of db1 c.pair = some ⟨c.jail, c.ip, c.ban_id, true⟩)
    (hothers : ∀ pair, pair ∉ claims.map SnapshotClaim.pair → claim_of db1 pair = claim_of db pair) :
    (∀ c ∈ claims, claim_of (deactivate_missing db1 (active_rows db) claims) c.pair =
        some ⟨c.jail, c.ip, c.ban_id, true⟩) ∧
      ∀ pair, pair ∉ claims.map SnapshotClaim.pair →
        claim_of (deactivate_missing db1 (active_rows db) claims) pair =
          (claim_of db pair).map (fun r => { r with active := false }) := by
  have hmissing : ∀ pair, pair ∈ ((active_rows db).filter
      (fun r => ¬ claims.any (fun c => c.pair = r.key))).map ClaimRow.key ↔
        is_active db pair = true ∧ pair ∉ claims.map SnapshotClaim.pair := by
    intro pair
    simp only [List.mem_map, List.mem_filter, active_rows, decide_eq_true_eq, List.any_eq_true,
      not_exists, not_and]
    constructor
    · rintro ⟨r, ⟨⟨hr, hactive⟩, hnone⟩, rfl⟩
      refine ⟨?_, fun c hc hpair => hnone c hc hpair⟩
      rw [is_active, claim_of_eq_some.mpr ⟨hr, rfl⟩]
      exact hactive
    · rintro ⟨hactive, hnone⟩
      rw [is_active, Option.any_eq_true] at hactive
      obtain ⟨r, hrow, hactive⟩ := hactive
      obtain ⟨hr, rfl⟩ := claim_of_eq_some.mp hrow
      exact ⟨r, ⟨⟨hr, hactive⟩, fun c hc hpair => hnone c hc hpair⟩, rfl⟩
  constructor
  · intro c hc
    rw [deactivate_missing, foldl_deactivate, if_neg, hclaims c hc]
    rw [hmissing]
    exact fun h => h.2 (List.mem_map_of_mem hc)
  · intro pair hpair
    rw [deactivate_missing, foldl_deactivate, hothers pair hpair]
    split
    · rfl
    · rename_i hnot
      rw [hmissing] at hnot
      -- the row was not active before, so setting `active` to false changes nothing
      have hinactive : is_active db pair = false := by
        by_contra h
        exact hnot ⟨by simpa using h, hpair⟩
      rw [is_active] at hinactive
      cases hrow : claim_of db pair with
      | none => rfl
      | some r =>
        rw [hrow, Option.any_some] at hinactive
        rw [Option.map_some, ← hinactive]

/-- A snapshot that was written. Its pairs are active with the `ban_id` the payload says, and
every other claim is kept but inactive. -/
structure Committed (env : Env) (db : DB) (normalized : List SnapshotClaim)
    (expected_seq : Option ℕ) (now : ℚ) (snapshot_uuid : Uuid4) (p : SnapshotPayload) (db' : DB) :
    Prop where
  expected : ∀ seq, expected_seq = some seq → db.seq = seq
  snapshot_id : p.snapshot_id = snapshot_uuid.text
  claims : p.claims.Perm (normalized.map (reuse_ban_id (active_rows db)))
  activated : ∀ c ∈ p.claims, claim_of db' c.pair = some ⟨c.jail, c.ip, c.ban_id, true⟩
  others : ∀ pair, pair ∉ normalized.map SnapshotClaim.pair →
    claim_of db' pair = (claim_of db pair).map (fun r => { r with active := false })
  inserted : Inserted env db (.snapshot p) now db'

/-- The pairs of a snapshot are those of the loop. -/
theorem Committed.pairs {env : Env} {db db' : DB} {normalized : List SnapshotClaim}
    {expected_seq : Option ℕ} {now : ℚ} {snapshot_uuid : Uuid4} {p : SnapshotPayload}
    (h : Committed env db normalized expected_seq now snapshot_uuid p db') :
    (p.claims.map SnapshotClaim.pair).Perm (normalized.map SnapshotClaim.pair) := by
  have hperm := h.claims.map SnapshotClaim.pair
  rwa [List.map_map, show SnapshotClaim.pair ∘ reuse_ban_id (active_rows db) = SnapshotClaim.pair
    from funext (reuse_ban_id_pair _)] at hperm

/-- **What a snapshot does.** The transaction of a snapshot is refused, with the tables as before,
or writes the snapshot. -/
theorem commit_outcome {env : Env} {db db' : DB} {normalized : List SnapshotClaim}
    {expected_seq : Option ℕ} {now : ℚ} {snapshot_uuid : Uuid4}
    {result : Except SenderError SnapshotPayload}
    (hnodup : (normalized.map SnapshotClaim.pair).Nodup)
    (h : commit_snapshot env db normalized expected_seq now snapshot_uuid = (result, db')) :
    (∃ e, result = .error e ∧ db' = db) ∨
      ∃ p, result = .ok p ∧ Committed env db normalized expected_seq now snapshot_uuid p db' := by
  unfold commit_snapshot transaction at h
  cases hbody : commit_snapshot_body env db normalized expected_seq now snapshot_uuid with
  | error e =>
    rw [hbody] at h
    obtain ⟨rfl, rfl⟩ := Prod.mk.inj h
    exact Or.inl ⟨e, rfl, rfl⟩
  | ok r =>
    obtain ⟨p, db''⟩ := r
    rw [hbody] at h
    obtain ⟨rfl, rfl⟩ := Prod.mk.inj h
    refine Or.inr ⟨p, rfl, ?_⟩
    unfold commit_snapshot_body at hbody
    split at hbody
    · cases hbody
    rename_i hexpected
    obtain ⟨_, hcapacity, hbody⟩ := bind_eq_ok.mp hbody
    obtain ⟨db1, hactivate, hbody⟩ := bind_eq_ok.mp hbody
    obtain ⟨db2, hinsert, hbody⟩ := bind_eq_ok.mp hbody
    obtain ⟨rfl, rfl⟩ := Prod.mk.inj (Except.ok.inj hbody)
    -- taking over a stored identity keeps the pair
    have hpairs : (normalized.map (reuse_ban_id (active_rows db))).map SnapshotClaim.pair =
        normalized.map SnapshotClaim.pair := by
      rw [List.map_map]
      exact List.map_congr_left (fun c _ => reuse_ban_id_pair _ c)
    obtain ⟨t1, rfl, hclaims, hothers⟩ := activate_claims_spec (by rw [hpairs]; exact hnodup) hactivate
    obtain ⟨hclaims', hothers'⟩ := claim_of_deactivate_missing db hclaims hothers
    obtain ⟨t2, hmissing⟩ := deactivate_missing_other { db with claims := t1 } (active_rows db)
      (normalized.map (reuse_ban_id (active_rows db)))
    rw [hpairs] at hothers'
    -- the number of the snapshot is read from the tables the loops have left
    generalize deactivate_missing { db with claims := t1 } (active_rows db)
      (normalized.map (reuse_ban_id (active_rows db))) = db2 at *
    subst hmissing
    obtain ⟨hle, outbox, rfl, hrows⟩ := insert_outbox_spec hinsert
    have hperm := List.perm_insertionSort by_jail_and_ip
      (normalized.map (reuse_ban_id (active_rows db)))
    refine ⟨?_, rfl, hperm, fun c hc => hclaims' c (hperm.mem_iff.mp hc), hothers',
      ⟨check_capacity_ok hcapacity, rfl, hle, rfl, hrows, rfl, rfl⟩⟩
    rintro seq rfl
    simpa using hexpected

end F2bguard.Sender
