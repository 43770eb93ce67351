/-
What a request does to the receiver's tables.

`apply_events` and `apply_snapshot` have many exits, but each call ends in one of three
ways. It raises, and nothing has changed. It is old, so nothing but a missing row of
`client_state` is written. Or it is fresh: its sequence numbers are above the stored
one, the claims of its client change as its events say, in order, and `last_seq` becomes
its highest number. `Outcome` is that statement and `perform_outcome` its proof; results
about runs are derived from it without looking at the calls again.
-/
import F2bguard.Store
import F2bguard.Lifecycle

set_option autoImplicit false

namespace F2bguard.Store

open F2bguard.PyText F2bguard.PyJson F2bguard.Claims F2bguard.Tables F2bguard.Lifecycle

/-! ## Claims as a map

The rows of `claims` that belong to a client, seen as a map from the identity of a claim to what
it says. The primary key makes it a map, and it is all of the tables that the meaning of a request
speaks of; the times of the rows are left out. -/

/-- What a claim says, apart from its identity. -/
structure ClaimValue where
  ip : Text
  permanent : Fin 2
  expires_at : Option ℚ
  deriving DecidableEq

/-- `(jail, ban_id)` -/
abbrev ClaimKey := Text × Text

def ClaimRow.value (r : ClaimRow) : ClaimValue := ⟨r.ip, r.permanent, r.expires_at⟩

/-- The claims of a client, by identity. -/
def claim_set (db : DB) (client_id : Text) : ClaimKey → Option ClaimValue :=
  fun k => (db.claims.lookup ClaimRow.key (client_id, k)).map ClaimRow.value

theorem client_state_unique : Table.Unique ClientState.Compat ClientState.client_id :=
  fun _ _ h => h

theorem claims_unique : Table.Unique ClaimRow.Compat ClaimRow.key := fun _ _ h => h

theorem events_id_unique : Table.Unique EventRow.Compat EventRow.id_key := fun _ _ h => h.1

theorem events_seq_unique : Table.Unique EventRow.Compat EventRow.seq_key := fun _ _ h => h.2

theorem snapshots_id_unique : Table.Unique SnapshotRow.Compat SnapshotRow.id_key :=
  fun _ _ h => h.1

theorem snapshots_seq_unique : Table.Unique SnapshotRow.Compat SnapshotRow.seq_key :=
  fun _ _ h => h.2

/-- The rows of a client are the entries of its claim set. -/
theorem claim_set_eq_some {db : DB} {client_id : Text} {k : ClaimKey} {v : ClaimValue} :
    claim_set db client_id k = some v ↔
      ∃ r ∈ db.claims.rows, r.key = (client_id, k) ∧ r.value = v := by
  unfold claim_set
  rw [Option.map_eq_some_iff]
  simp only [Table.lookup_eq_some claims_unique, and_assoc]

theorem claim_ip_eq (db : DB) (client_id jail ban_id : Text) :
    claim_ip db client_id jail ban_id =
      (claim_set db client_id (jail, ban_id)).map ClaimValue.ip := by
  rw [claim_ip, claim_set, Option.map_map]
  rfl

/-! ## Statements

What each statement leaves alone, and what it does to the claim set and to the number of a client.
These are the only lemmas that look into a statement; what follows rewrites with them. -/

section Statements

variable (db : DB) (client_id : Text) (now : ℚ)

@[simp] theorem ensure_client_claims : (ensure_client db client_id now).claims = db.claims := by
  unfold ensure_client
  split <;> rfl

@[simp] theorem ensure_client_events : (ensure_client db client_id now).events = db.events := by
  unfold ensure_client
  split <;> rfl

@[simp] theorem ensure_client_snapshots :
    (ensure_client db client_id now).snapshots = db.snapshots := by
  unfold ensure_client
  split <;> rfl

@[simp] theorem ensure_client_enforcement_state :
    (ensure_client db client_id now).enforcement_state = db.enforcement_state := by
  unfold ensure_client
  split <;> rfl

@[simp] theorem claim_set_ensure_client (c : Text) :
    claim_set (ensure_client db client_id now) c = claim_set db c := by
  unfold claim_set
  rw [ensure_client_claims]

/-- The inserted row starts at zero, which is what a missing row counts as. -/
@[simp] theorem last_seq_ensure_client (c : Text) :
    last_seq (ensure_client db client_id now) c = last_seq db c := by
  unfold ensure_client
  split
  · rename_i t ht
    have hlookup := Table.lookup_insert client_state_unique ht c
    simp only [last_seq, hlookup]
    split
    · rename_i hc
      have hnone : db.client_state.lookup ClientState.client_id c = none := by
        rw [Table.lookup_eq_none]
        intro r hr
        have := Table.compat_of_insert ht r hr
        exact fun h => this (h.trans hc.symm)
      rw [hnone]
      rfl
    · rfl
  · rfl

theorem client_exists_ensure_client : client_exists (ensure_client db client_id now) client_id := by
  unfold ensure_client client_exists
  split
  · rename_i t ht
    have hlookup := Table.lookup_insert client_state_unique ht client_id
    rw [if_pos rfl] at hlookup
    simp [hlookup]
  · rename_i hnone
    have hsome : ¬ (db.client_state.insert ⟨client_id, 0, now⟩).isSome := by
      rw [hnone]
      simp
    rw [Table.insert_isSome] at hsome
    push Not at hsome
    obtain ⟨r, hr, hcompat⟩ := hsome
    have hkey : r.client_id = client_id := not_not.mp hcompat
    rw [(Table.lookup_eq_some client_state_unique).mpr ⟨hr, hkey⟩]
    rfl

theorem last_seq_set_last_seq (seq : ℕ) (hexists : client_exists db client_id) (c : Text) :
    last_seq (set_last_seq db client_id seq now) c =
      if c = client_id then seq else last_seq db c := by
  have hlookup := Table.lookup_modify client_state_unique (t := db.client_state) (k := client_id)
    (f := fun r => { r with last_seq := seq, updated_at := now }) (fun _ h => h)
    (set_last_seq_compat client_id seq now) c
  simp only [last_seq, set_last_seq, hlookup]
  by_cases hc : client_id = c
  · subst hc
    obtain ⟨r, hr⟩ := Option.isSome_iff_exists.mp hexists
    simp [hr]
  · rw [if_neg hc, if_neg (fun h => hc h.symm)]

end Statements

@[simp] theorem set_last_seq_claims (db : DB) (client_id : Text) (seq : ℕ) (now : ℚ) :
    (set_last_seq db client_id seq now).claims = db.claims := rfl

@[simp] theorem claim_set_set_last_seq (db : DB) (client_id : Text) (seq : ℕ) (now : ℚ)
    (c : Text) : claim_set (set_last_seq db client_id seq now) c = claim_set db c := rfl

@[simp] theorem claim_set_truncate_events (env : Env) (db : DB) (client_id c : Text) :
    claim_set (truncate_events env db client_id) c = claim_set db c := rfl

@[simp] theorem claim_set_truncate_snapshots (env : Env) (db : DB) (client_id c : Text) :
    claim_set (truncate_snapshots env db client_id) c = claim_set db c := rfl

@[simp] theorem last_seq_truncate_events (env : Env) (db : DB) (client_id c : Text) :
    last_seq (truncate_events env db client_id) c = last_seq db c := rfl

@[simp] theorem last_seq_truncate_snapshots (env : Env) (db : DB) (client_id c : Text) :
    last_seq (truncate_snapshots env db client_id) c = last_seq db c := rfl

theorem constrained_eq_ok {α : Type} {o : Option α} {x : α} :
    constrained o = .ok x ↔ o = some x := by
  cases o <;> simp [constrained]

theorem map_eq_ok {ε α β : Type} {x : Except ε α} {f : α → β} {y : β} :
    x.map f = .ok y ↔ ∃ a, x = .ok a ∧ f a = y := by
  cases x <;> simp [Except.map]

theorem bind_eq_ok {ε α β : Type} {x : Except ε α} {f : α → Except ε β} {y : β} :
    x.bind f = .ok y ↔ ∃ a, x = .ok a ∧ f a = .ok y := by
  cases x <;> simp [Except.bind]

theorem map_eq_error {ε α β : Type} {x : Except ε α} {f : α → β} {e : ε} :
    x.map f = .error e ↔ x = .error e := by
  cases x <;> simp [Except.map]

theorem bind_eq_error {ε α β : Type} {x : Except ε α} {f : α → Except ε β} {e : ε} :
    x.bind f = .error e ↔ x = .error e ∨ ∃ a, x = .ok a ∧ f a = .error e := by
  cases x <;> simp [Except.bind]

/-! ## The loop over the events

The loop is a fold with an exit at each turn. A turn changes the claim set as its event says
(`apply_op_spec`) and adds one entry to the history, and what a number of turns has done is
`Applied`, which composes. The induction is on the events that are left. -/

/-- The change of the claim set an event stands for. -/
def Event.change (e : Event) : Change ClaimKey ClaimValue :=
  match e.op with
  | .ban => .assign (e.jail, e.ban_id)
      ⟨e.ip, int_of_bool (e.permanent.getD false), e.expires_at⟩
  | .unban => .release (e.jail, e.ban_id)

theorem upsert_claim_spec {db db' : DB} {row : ClaimRow} (h : upsert_claim db row = .ok db') :
    ∃ claims, db' = { db with claims } ∧
      ∀ k, (claims.lookup ClaimRow.key k).map ClaimRow.value =
        if row.key = k then some row.value
        else (db.claims.lookup ClaimRow.key k).map ClaimRow.value := by
  unfold upsert_claim at h
  split at h
  · obtain ⟨claims, hclaims, rfl⟩ := map_eq_ok.mp h
    rw [constrained_eq_ok] at hclaims
    refine ⟨claims, rfl, fun k => ?_⟩
    rw [Table.lookup_upsert claims_unique (by exact fun _ hx => hx) hclaims k]
    split
    · cases db.claims.lookup ClaimRow.key row.key <;> rfl
    · rfl
  · cases h

/-- What the claim half of a turn does to the claim sets. -/
theorem apply_op_spec {client_id : Text} {now : ℚ} {db db' : DB} {e : Event}
    (h : apply_op client_id now db e = .ok db') :
    ∃ claims, db' = { db with claims } ∧
      ∀ c, claim_set db' c =
        if c = client_id then (Event.change e).apply (claim_set db client_id)
        else claim_set db c := by
  unfold apply_op at h
  simp only [claim_ip_eq] at h
  cases hop : e.op with
  -- the row of the identity is written, and no other
  | ban =>
    simp only [hop] at h
    split at h
    · cases h
    · obtain ⟨claims, rfl, hlookup⟩ := upsert_claim_spec h
      refine ⟨claims, rfl, fun c => ?_⟩
      funext k
      have hk := hlookup (c, k)
      have hchange : Event.change e = .assign (e.jail, e.ban_id)
          ⟨e.ip, int_of_bool (e.permanent.getD false), e.expires_at⟩ := by
        rw [Event.change, hop]
      rw [claim_set, hk]
      by_cases hc : c = client_id
      · subst hc
        rw [if_pos rfl, hchange, Change.apply, Function.update_apply]
        by_cases hkey : k = (e.jail, e.ban_id)
        · subst hkey
          rw [if_pos rfl, if_pos (show (ban_row c now e).key = (c, e.jail, e.ban_id) from rfl)]
          rfl
        · rw [if_neg hkey, if_neg (fun h => hkey (by cases h; rfl))]
          rfl
      · rw [if_neg hc, if_neg (fun h => hc (by cases h; rfl))]
        rfl
  -- the row goes when the address is the one of the event, or there was none
  | unban =>
    simp only [hop] at h
    split at h
    · cases h
    · rename_i hip
      cases h
      refine ⟨_, rfl, fun c => ?_⟩
      funext k
      have hchange : Event.change e = .release (e.jail, e.ban_id) := by rw [Event.change, hop]
      rw [claim_set, Table.lookup_delete claims_unique]
      by_cases hc : c = client_id
      · subst hc
        rw [if_pos rfl, hchange, Change.apply, Function.update_apply]
        by_cases hkey : k = (e.jail, e.ban_id)
        · subst hkey
          rw [if_pos rfl]
          -- the check before has compared the addresses
          cases hl : db.claims.lookup ClaimRow.key (c, (e.jail, e.ban_id)) with
          | none => rfl
          | some r =>
            have hrkey := (Table.lookup_some_mem hl).2
            have hrip : r.ip = e.ip := by
              simpa [claim_set, hl, ClaimRow.value] using hip
            simp [hrkey, hrip]
        · rw [if_neg hkey, claim_set]
          cases hl : db.claims.lookup ClaimRow.key (c, k) with
          | none => rfl
          | some r =>
            have hrkey := (Table.lookup_some_mem hl).2
            have hne : ¬ (r.key = (c, e.jail, e.ban_id)) := by
              rw [hrkey]
              exact fun h => hkey (by cases h; rfl)
            simp [hne]
      · rw [if_neg hc, claim_set]
        cases hl : db.claims.lookup ClaimRow.key (c, k) with
        | none => rfl
        | some r =>
          have hrkey := (Table.lookup_some_mem hl).2
          have hne : ¬ (r.key = (client_id, e.jail, e.ban_id)) := by
            rw [hrkey]
            exact fun h => hc (by cases h; rfl)
          simp [hne]

/-- What a number of turns of the loop has done. -/
structure Applied (env : Env) (client_id : Text) (now : ℚ) (es : List Event) (db db' : DB) :
    Prop where
  client_state : db'.client_state = db.client_state
  snapshots : db'.snapshots = db.snapshots
  enforcement_state : db'.enforcement_state = db.enforcement_state
  events : db'.events.rows = db.events.rows ++ es.map (event_row env client_id now)
  claims : ∀ c, claim_set db' c =
    if c = client_id then applyAll (claim_set db client_id) (es.map Event.change)
    else claim_set db c

theorem apply_event_spec {env : Env} {client_id : Text} {now : ℚ} {db db' : DB} {e : Event}
    (h : apply_event env client_id now db e = .ok db') : Applied env client_id now [e] db db' := by
  obtain ⟨db1, hop, h⟩ := bind_eq_ok.mp h
  obtain ⟨events, hevents, rfl⟩ := map_eq_ok.mp h
  obtain ⟨claims, rfl, hclaims⟩ := apply_op_spec hop
  exact ⟨rfl, rfl, rfl, Table.insert_eq_some.mp (constrained_eq_ok.mp hevents), hclaims⟩

theorem Applied.trans {env : Env} {client_id : Text} {now : ℚ} {es es' : List Event}
    {db db' db'' : DB} (h : Applied env client_id now es db db')
    (h' : Applied env client_id now es' db' db'') :
    Applied env client_id now (es ++ es') db db'' := by
  refine ⟨h'.client_state.trans h.client_state, h'.snapshots.trans h.snapshots,
    h'.enforcement_state.trans h.enforcement_state, ?_, fun c => ?_⟩
  · rw [h'.events, h.events, List.append_assoc, List.map_append]
  · rw [h'.claims c, h.claims c, h.claims client_id, if_pos rfl, List.map_append, applyAll_append]
    split <;> rfl

theorem foldlM_apply_event {env : Env} {client_id : Text} {now : ℚ} {events : List Event} :
    ∀ {db db' : DB}, events.foldlM (apply_event env client_id now) db = .ok db' →
      Applied env client_id now events db db' := by
  induction events with
  | nil =>
    intro db db' h
    cases h
    exact ⟨rfl, rfl, rfl, by simp, fun c => by split <;> simp_all⟩
  | cons e es ih =>
    intro db db' h
    rw [List.foldlM_cons] at h
    obtain ⟨db1, he, hes⟩ := bind_eq_ok.mp h
    exact (apply_event_spec he).trans (ih hes)

/-! ## The loop over the claims of a snapshot

The claims of the client are deleted and those of the snapshot inserted one by one. The insertion
goes through for the first claim of each identity, and a snapshot has no two with one, so the rows
in the end are the list. -/

/-- A claim as an entry of a claim set. -/
def Claim.entry (c : Claim) : ClaimKey × ClaimValue :=
  (c.key, ⟨c.ip, int_of_bool c.permanent, c.expires_at⟩)

theorem insert_claim_spec {db db' : DB} {row : ClaimRow} (h : insert_claim db row = .ok db') :
    ∃ claims, db' = { db with claims } ∧ claims.rows = db.claims.rows ++ [row] := by
  unfold insert_claim at h
  split at h
  · obtain ⟨claims, hclaims, rfl⟩ := map_eq_ok.mp h
    exact ⟨claims, rfl, Table.insert_eq_some.mp (constrained_eq_ok.mp hclaims)⟩
  · cases h

theorem foldlM_insert_claim {rows : List ClaimRow} :
    ∀ {db db' : DB}, rows.foldlM insert_claim db = .ok db' →
      ∃ claims, db' = { db with claims } ∧ claims.rows = db.claims.rows ++ rows := by
  induction rows with
  | nil =>
    intro db db' h
    cases h
    exact ⟨db.claims, rfl, by simp⟩
  | cons r rs ih =>
    intro db db' h
    rw [List.foldlM_cons] at h
    obtain ⟨db1, hr, hrs⟩ := bind_eq_ok.mp h
    obtain ⟨claims1, rfl, hrows1⟩ := insert_claim_spec hr
    obtain ⟨claims, rfl, hrows⟩ := ih hrs
    refine ⟨claims, rfl, ?_⟩
    rw [hrows, hrows1, List.append_assoc, List.singleton_append]

/-- The tables after the loop that replaces a client's claims. -/
theorem claim_set_replaced {db : DB} {client_id : Text} {now : ℚ} {claims : List Claim}
    {t : Table ClaimRow ClaimRow.Compat}
    (hrows : t.rows = (db.claims.delete (fun r => r.client_id = client_id)).rows
      ++ claims.map (claim_row client_id now)) (c : Text) :
    claim_set { db with claims := t } c =
      if c = client_id then ofEntries (claims.map Claim.entry) else claim_set db c := by
  have hkeys : ((claims.map Claim.entry).map Prod.fst).Nodup := by
    have hdistinct := t.distinct
    rw [hrows, List.pairwise_append] at hdistinct
    rw [List.map_map, List.Nodup, List.pairwise_map]
    refine (List.pairwise_map.mp hdistinct.2.1).imp ?_
    intro x y hxy hkey
    exact hxy (congrArg (fun k => (client_id, k)) hkey)
  funext k
  apply Option.ext
  intro v
  rw [claim_set_eq_some]
  simp only [hrows, List.mem_append, Table.mem_delete, List.mem_map, decide_eq_false_iff_not]
  by_cases hc : c = client_id
  · subst hc
    rw [if_pos rfl, ofEntries_eq_some hkeys, List.mem_map]
    constructor
    · rintro ⟨r, ⟨-, hne⟩ | ⟨x, hx, rfl⟩, hkey, hval⟩
      · exact absurd (congrArg Prod.fst hkey) hne
      · exact ⟨x, hx, Prod.ext (congrArg Prod.snd hkey) hval⟩
    · rintro ⟨x, hx, hentry⟩
      refine ⟨claim_row c now x, Or.inr ⟨x, hx, rfl⟩, ?_, congrArg Prod.snd hentry⟩
      exact congrArg (fun k => (c, k)) (congrArg Prod.fst hentry)
  · rw [if_neg hc, claim_set_eq_some]
    constructor
    · rintro ⟨r, ⟨hr, -⟩ | ⟨x, hx, rfl⟩, hkey, hval⟩
      · exact ⟨r, hr, hkey, hval⟩
      · exact absurd (congrArg Prod.fst hkey).symm hc
    · rintro ⟨r, hr, hkey, hval⟩
      refine ⟨r, Or.inl ⟨hr, fun hrc => hc ?_⟩, hkey, hval⟩
      exact (congrArg Prod.fst hkey).symm.trans hrc

/-! ## Requests and their outcomes

Both calls are one notion from here on: a `Call` asks for a `Request`, and `Outcome` lists how it
may end. The lemmas before the main one follow the exits of the two bodies, those that return and
those that raise. -/

/-- What a client asks the store to apply. -/
inductive Request
  | events (events : List Event)
  | snapshot (snapshot_id : Text) (seq : ℕ) (claims : List Claim)

/-- The sequence numbers of a request, in its order. -/
def Request.seqs : Request → List ℕ
  | .events es => es.map Event.seq
  | .snapshot _ seq _ => [seq]

/-- The highest sequence number of a request that was validated. -/
def Request.highest (request : Request) : ℕ := request.seqs.getLast?.getD 0

/-- What a request does to the claim set of its client when it is fresh. -/
def Request.changes : Request → List (Change ClaimKey ClaimValue)
  | .events es => es.map Event.change
  | .snapshot _ _ claims => [.replace (claims.map Claim.entry)]

/-- A call of `apply_events` or `apply_snapshot`. -/
structure Call where
  client_id : Text
  request : Request
  claims_limit : ℕ
  now : ℚ

/-- The call of the store that a request stands for. -/
def Call.perform (env : Env) (db : DB) (call : Call) : Except StoreError ApplyResult × DB :=
  match call.request with
  | .events es => apply_events env db call.client_id es call.claims_limit call.now
  | .snapshot snapshot_id seq claims =>
      apply_snapshot env db call.client_id snapshot_id seq claims call.claims_limit call.now

/-- The rows a fresh call adds to the histories. -/
def Call.event_rows (env : Env) (call : Call) : List EventRow :=
  match call.request with
  | .events es => es.map (event_row env call.client_id call.now)
  | .snapshot _ _ _ => []

/-- The entry of the history of snapshots that a fresh call adds. -/
def Call.snapshot_rows (env : Env) (call : Call) : List SnapshotRow :=
  match call.request with
  | .events _ => []
  | .snapshot snapshot_id seq claims =>
      [⟨call.client_id, snapshot_id, seq, payload_hash env (snapshot_payload snapshot_id seq claims),
        call.now⟩]

/-- **A request that was accepted as fresh, and the tables it left.** Its numbers are above the
one that was stored and increase; the highest is stored now. The claims of its client have changed
as the request says, and those of no other client have. The limits hold in the end. What the
histories hold is among what they held and what the call adds, in this order; the caps may have
taken some of it away. -/
structure Fresh (env : Env) (db : DB) (call : Call) (db' : DB) : Prop where
  nonempty : call.request.seqs ≠ []
  newer : ∀ s ∈ call.request.seqs, last_seq db call.client_id < s
  increasing : call.request.seqs.Pairwise (· < ·)
  last_seq : ∀ c, last_seq db' c =
    if c = call.client_id then call.request.highest else last_seq db c
  claims : ∀ c, claim_set db' c =
    if c = call.client_id then applyAll (claim_set db call.client_id) call.request.changes
    else claim_set db c
  count : claim_count db' call.client_id ≤ call.claims_limit
  total : total_claims db' ≤ MAX_TOTAL_CLAIMS
  events : db'.events.rows.Sublist (db.events.rows ++ call.event_rows env)
  snapshots : db'.snapshots.rows.Sublist (db.snapshots.rows ++ call.snapshot_rows env)
  enforcement_state : db'.enforcement_state = db.enforcement_state

/-- **How a call ends.** It raised, and the tables are what they were. It was answered as known,
and the tables are the same but for a row of `client_state` that may have been missing: its
numbers are all used up. Or it was fresh. The flags of the answer tell which. -/
inductive Outcome (env : Env) (db : DB) (call : Call) : Except StoreError ApplyResult → DB → Prop
  | refused (e : StoreError) : Outcome env db call (.error e) db
  | known {db' : DB} (duplicate : Bool) (hne : call.request.seqs ≠ [])
      (hold : ∀ s ∈ call.request.seqs, s ≤ last_seq db call.client_id)
      (hdb : db' = ensure_client db call.client_id call.now) :
      Outcome env db call (.ok ⟨true, duplicate, !duplicate, last_seq db call.client_id⟩) db'
  | fresh {db' : DB} (h : Fresh env db call db') :
      Outcome env db call (.ok ⟨true, false, false, call.request.highest⟩) db'

theorem transaction_cases {α : Type} (db : DB) (body : Except StoreError (α × DB)) :
    (∃ e, body = .error e ∧ transaction db body = (.error e, db)) ∨
      ∃ x db', body = .ok (x, db') ∧ transaction db body = (.ok x, db') := by
  cases body with
  | error e => exact Or.inl ⟨e, rfl, rfl⟩
  | ok r => exact Or.inr ⟨r.1, r.2, rfl, rfl⟩

theorem transaction_eq_ok {α : Type} {db db' : DB} {body : Except StoreError (α × DB)} {x : α} :
    transaction db body = (.ok x, db') ↔ body = .ok (x, db') := by
  rcases transaction_cases db body with ⟨e, hbody, htx⟩ | ⟨y, db1, hbody, htx⟩
  · rw [htx, hbody]
    exact iff_of_false (fun h => (by cases h)) (fun h => (by cases h))
  · rw [htx, hbody, Prod.mk.injEq, Except.ok.injEq, Except.ok.injEq, Prod.mk.injEq]

theorem transaction_eq_error {α : Type} {db : DB} {body : Except StoreError (α × DB)}
    {err : StoreError} : (transaction db body).1 = .error err ↔ body = .error err := by
  rcases transaction_cases db body with ⟨e, hbody, htx⟩ | ⟨y, db1, hbody, htx⟩
  · rw [htx, hbody, Except.error.injEq, Except.error.injEq]
  · rw [htx, hbody]
    exact iff_of_false (fun h => (by cases h)) (fun h => (by cases h))

theorem prior_event_ensure_client (db : DB) (client_id c : Text) (now : ℚ) (e : Event) :
    prior_event (ensure_client db client_id now) c e = prior_event db c e := by
  rw [prior_event, prior_event, ensure_client_events]

theorem event_reused_ensure_client (env : Env) (db : DB) (client_id c : Text) (now : ℚ) (e : Event) :
    event_reused env (ensure_client db client_id now) c e = event_reused env db c e := by
  rw [event_reused, event_reused, prior_event_ensure_client]

/-- What a new batch leaves when it is answered: every event applied, within the limits. -/
theorem apply_fresh_events_eq_ok {env : Env} {db db' : DB} {client_id : Text} {es : List Event}
    {new_seq limit : ℕ} {now : ℚ} {result : ApplyResult}
    (h : apply_fresh_events env db client_id es new_seq limit now = .ok (result, db')) :
    ∃ db1, es.foldlM (apply_event env client_id now) db = .ok db1 ∧
      check_limits db1 client_id limit = .ok () ∧ result = ⟨true, false, false, new_seq⟩ ∧
      db' = truncate_events env (set_last_seq db1 client_id new_seq now) client_id := by
  obtain ⟨db1, hloop, h⟩ := bind_eq_ok.mp h
  obtain ⟨_, hlimits, h⟩ := map_eq_ok.mp h
  obtain ⟨rfl, rfl⟩ := Prod.mk.inj h
  exact ⟨db1, hloop, hlimits, rfl, rfl⟩

/-- What a new snapshot leaves when it is answered: its claims for the stored ones, and its row. -/
theorem apply_fresh_snapshot_eq_ok {env : Env} {db db' : DB} {client_id snapshot_id : Text} {seq : ℕ}
    {claims : List Claim} {now : ℚ} {result : ApplyResult}
    (h : apply_fresh_snapshot env db client_id snapshot_id seq claims now = .ok (result, db')) :
    ∃ db1 snapshots,
      (claims.map (claim_row client_id now)).foldlM insert_claim (delete_claims db client_id) =
        .ok db1 ∧
      total_claims db1 ≤ MAX_TOTAL_CLAIMS ∧
      db1.snapshots.insert ⟨client_id, snapshot_id, seq,
        payload_hash env (snapshot_payload snapshot_id seq claims), now⟩ = some snapshots ∧
      result = ⟨true, false, false, seq⟩ ∧
      db' = truncate_snapshots env (set_last_seq { db1 with snapshots } client_id seq now)
        client_id := by
  unfold apply_fresh_snapshot at h
  split at h
  · -- an identity changes its address
    cases h
  obtain ⟨db1, hloop, h⟩ := bind_eq_ok.mp h
  split at h
  · cases h
  rename_i htotal
  obtain ⟨snapshots, hinsert, h⟩ := map_eq_ok.mp h
  obtain ⟨rfl, rfl⟩ := Prod.mk.inj h
  exact ⟨db1, snapshots, hloop, not_lt.mp htotal, constrained_eq_ok.mp hinsert, rfl, rfl⟩

/-- A batch that is answered is old as a whole, and changes nothing, or new as a whole. -/
theorem apply_events_body_eq_ok {env : Env} {db db' : DB} {client_id : Text} {es : List Event}
    {first last : Event} {limit : ℕ} {now : ℚ} {result : ApplyResult}
    (h : apply_events_body env db client_id es first last limit now = .ok (result, db')) :
    (last.seq ≤ last_seq db client_id ∧
      (∃ duplicate, result = ⟨true, duplicate, !duplicate, last_seq db client_id⟩) ∧
      db' = ensure_client db client_id now) ∨
    (last_seq db client_id < first.seq ∧
      apply_fresh_events env (ensure_client db client_id now) client_id es last.seq limit now =
        .ok (result, db')) := by
  unfold apply_events_body at h
  simp only [last_seq_ensure_client] at h
  split at h
  · -- an id is used again
    cases h
  split at h
  · split at h
    · -- the stored number is inside the batch
      cases h
    rename_i hcross
    refine Or.inl ⟨not_lt.mp hcross, ?_⟩
    split at h
    · obtain ⟨rfl, rfl⟩ := Prod.mk.inj (Except.ok.inj h)
      exact ⟨⟨true, rfl⟩, rfl⟩
    · obtain ⟨rfl, rfl⟩ := Prod.mk.inj (Except.ok.inj h)
      exact ⟨⟨false, rfl⟩, rfl⟩
  · rename_i hboundary
    split at h
    · cases h
    · exact Or.inr ⟨not_le.mp hboundary, h⟩

/-- Why a batch is refused: an id is used again, the stored number is inside it, or its events or
the limits do not allow it. -/
theorem apply_events_body_eq_error {env : Env} {db : DB} {client_id : Text} {es : List Event}
    {first last : Event} {limit : ℕ} {now : ℚ} {err : StoreError}
    (h : apply_events_body env db client_id es first last limit now = .error err) :
    ((∃ message, err = .conflict message) ∧
      ((∃ e ∈ es, event_reused env db client_id e = true) ∨
        (first.seq ≤ last_seq db client_id ∧ last_seq db client_id < last.seq) ∨
        (last_seq db client_id < first.seq ∧ ∃ e ∈ es, (prior_event db client_id e).isSome = true))) ∨
    (last_seq db client_id < first.seq ∧ (∀ e ∈ es, prior_event db client_id e = none) ∧
      apply_fresh_events env (ensure_client db client_id now) client_id es last.seq limit now =
        .error err) := by
  unfold apply_events_body at h
  simp only [last_seq_ensure_client, prior_event_ensure_client] at h
  split at h
  · rename_i hany
    obtain ⟨e, he, hreused⟩ := List.any_eq_true.mp hany
    rw [event_reused_ensure_client] at hreused
    cases h
    exact Or.inl ⟨⟨_, rfl⟩, Or.inl ⟨e, he, hreused⟩⟩
  split at h
  · rename_i hstored
    split at h
    · rename_i hcross
      cases h
      exact Or.inl ⟨⟨_, rfl⟩, Or.inr (Or.inl ⟨hstored, hcross⟩)⟩
    · -- an old batch is answered
      split at h <;> cases h
  · rename_i hboundary
    split at h
    · rename_i hany
      cases h
      exact Or.inl ⟨⟨_, rfl⟩, Or.inr (Or.inr ⟨not_le.mp hboundary, List.any_eq_true.mp hany⟩)⟩
    · rename_i hnone
      refine Or.inr ⟨not_le.mp hboundary, fun e he => ?_, h⟩
      rw [← Option.not_isSome_iff_eq_none]
      exact fun hsome => hnone (List.any_eq_true.mpr ⟨e, he, hsome⟩)

/-- A snapshot that is answered is old, and changes nothing, or new. -/
theorem apply_snapshot_body_eq_ok {env : Env} {db db' : DB} {client_id snapshot_id : Text} {seq : ℕ}
    {claims : List Claim} {now : ℚ} {result : ApplyResult}
    (h : apply_snapshot_body env db client_id snapshot_id seq claims now = .ok (result, db')) :
    (seq ≤ last_seq db client_id ∧
      (∃ duplicate, result = ⟨true, duplicate, !duplicate, last_seq db client_id⟩) ∧
      db' = ensure_client db client_id now) ∨
    (last_seq db client_id < seq ∧
      apply_fresh_snapshot env (ensure_client db client_id now) client_id snapshot_id seq claims now =
        .ok (result, db')) := by
  unfold apply_snapshot_body at h
  simp only [last_seq_ensure_client] at h
  split at h
  · -- the id is used again
    cases h
  split at h
  · rename_i hstored
    refine Or.inl ⟨hstored, ?_⟩
    split at h
    · obtain ⟨rfl, rfl⟩ := Prod.mk.inj (Except.ok.inj h)
      exact ⟨⟨true, rfl⟩, rfl⟩
    · obtain ⟨rfl, rfl⟩ := Prod.mk.inj (Except.ok.inj h)
      exact ⟨⟨false, rfl⟩, rfl⟩
  · rename_i hnew
    exact Or.inr ⟨not_le.mp hnew, h⟩

/-- Why a snapshot is refused: its id is used again, or its claims do not allow it. -/
theorem apply_snapshot_body_eq_error {env : Env} {db : DB} {client_id snapshot_id : Text} {seq : ℕ}
    {claims : List Claim} {now : ℚ} {err : StoreError}
    (h : apply_snapshot_body env db client_id snapshot_id seq claims now = .error err) :
    ((∃ message, err = .conflict message) ∧
      (db.snapshots.lookup SnapshotRow.id_key (client_id, snapshot_id)).any (fun p => p.seq ≠ seq ∨
        p.payload_hash ≠ payload_hash env (snapshot_payload snapshot_id seq claims)) = true) ∨
    (last_seq db client_id < seq ∧
      ¬ (db.snapshots.lookup SnapshotRow.id_key (client_id, snapshot_id)).any (fun p => p.seq ≠ seq ∨
        p.payload_hash ≠ payload_hash env (snapshot_payload snapshot_id seq claims)) = true ∧
      apply_fresh_snapshot env (ensure_client db client_id now) client_id snapshot_id seq claims now =
        .error err) := by
  unfold apply_snapshot_body at h
  simp only [last_seq_ensure_client, ensure_client_snapshots] at h
  split at h
  · rename_i hreused
    cases h
    exact Or.inl ⟨⟨_, rfl⟩, hreused⟩
  rename_i hfree
  split at h
  · -- an old snapshot is answered
    split at h <;> cases h
  · rename_i hnew
    exact Or.inr ⟨not_le.mp hnew, hfree, h⟩

theorem highest_events (es : List Event) (hne : es ≠ []) :
    (Request.events es).highest = (es.getLast hne).seq := by
  simp [Request.highest, Request.seqs, List.getLast?_eq_getLast_of_ne_nil, hne]

theorem seqs_increase_iff {es : List Event} :
    seqs_increase es ↔ (es.map Event.seq).Pairwise (· < ·) := List.isChain_iff_pairwise

theorem apply_fresh_events_spec {env : Env} {db db' : DB} {call : Call} {es : List Event}
    {result : ApplyResult} (hcall : call.request = .events es) (hne : es ≠ [])
    (hinc : (es.map Event.seq).Pairwise (· < ·))
    (hnew : ∀ s ∈ es.map Event.seq, last_seq db call.client_id < s)
    (hexists : client_exists db call.client_id)
    (h : apply_fresh_events env db call.client_id es (es.getLast hne).seq call.claims_limit
      call.now = .ok (result, db')) :
    result = ⟨true, false, false, call.request.highest⟩ ∧ Fresh env db call db' := by
  obtain ⟨db1, hloop, hlimits, rfl, rfl⟩ := apply_fresh_events_eq_ok h
  have happlied := foldlM_apply_event hloop
  have hexists1 : client_exists db1 call.client_id := by
    rw [client_exists, happlied.client_state]
    exact hexists
  -- the counts are checked after the last event
  have hlimit : claim_count db1 call.client_id ≤ call.claims_limit ∧
      total_claims db1 ≤ MAX_TOTAL_CLAIMS := by
    unfold check_limits at hlimits
    split at hlimits
    · cases hlimits
    · split at hlimits
      · cases hlimits
      · exact ⟨by omega, by omega⟩
  refine ⟨by rw [hcall, highest_events es hne], ?_⟩
  refine ⟨?_, ?_, ?_, fun c => ?_, fun c => ?_, hlimit.1, hlimit.2, ?_, ?_,
    happlied.enforcement_state⟩
  · rw [hcall]
    simpa [Request.seqs] using hne
  · rw [hcall]
    exact hnew
  · rw [hcall]
    exact hinc
  · rw [last_seq_truncate_events, last_seq_set_last_seq _ _ _ _ hexists1, hcall,
      highest_events es hne]
    split
    · rfl
    · rw [last_seq, last_seq, happlied.client_state]
  · rw [claim_set_truncate_events, claim_set_set_last_seq, happlied.claims, hcall]
    rfl
  · have hsub : (truncate_events env
        (set_last_seq db1 call.client_id (es.getLast hne).seq call.now)
        call.client_id).events.rows.Sublist db1.events.rows := List.filter_sublist
    rw [happlied.events] at hsub
    simpa [Call.event_rows, hcall] using hsub
  · have heq : (truncate_events env
        (set_last_seq db1 call.client_id (es.getLast hne).seq call.now)
        call.client_id).snapshots.rows = db.snapshots.rows := by
      rw [← happlied.snapshots]
      rfl
    rw [heq]
    exact List.sublist_append_left _ _

theorem apply_fresh_snapshot_spec {env : Env} {db db' : DB} {call : Call} {snapshot_id : Text}
    {seq : ℕ} {claims : List Claim} {result : ApplyResult}
    (hcall : call.request = .snapshot snapshot_id seq claims)
    (hlimit : claims.length ≤ call.claims_limit)
    (hnew : last_seq db call.client_id < seq) (hexists : client_exists db call.client_id)
    (h : apply_fresh_snapshot env db call.client_id snapshot_id seq claims call.now
      = .ok (result, db')) :
    result = ⟨true, false, false, call.request.highest⟩ ∧ Fresh env db call db' := by
  obtain ⟨db1, snapshots, hloop, htotal, hinsert, rfl, rfl⟩ := apply_fresh_snapshot_eq_ok h
  obtain ⟨t, rfl, hrows⟩ := foldlM_insert_claim hloop
  unfold delete_claims at *
  have hclaims := claim_set_replaced hrows
  have hhighest : call.request.highest = seq := by rw [hcall]; rfl
  refine ⟨by rw [hhighest], ?_⟩
  refine ⟨?_, ?_, ?_, fun c => ?_, fun c => ?_, ?_, ?_, ?_, ?_, rfl⟩
  · rw [hcall]
    simp [Request.seqs]
  · rw [hcall]
    simpa [Request.seqs] using hnew
  · rw [hcall]
    simp [Request.seqs]
  · rw [last_seq_truncate_snapshots, hhighest]
    exact last_seq_set_last_seq { db with claims := t, snapshots } _ _ _ hexists c
  · rw [claim_set_truncate_snapshots, claim_set_set_last_seq, hcall]
    exact hclaims c
  · have hcount : (t.rows.filter (fun r => r.client_id = call.client_id)).length
        = claims.length := by
      rw [hrows, List.filter_append, Table.rows_delete, List.filter_filter]
      simp [claim_row, List.filter_map, Function.comp_def]
    exact hcount.trans_le hlimit
  · exact htotal
  · exact List.sublist_append_left _ _
  · have hsub : (truncate_snapshots env (set_last_seq { db with claims := t, snapshots }
        call.client_id seq call.now) call.client_id).snapshots.rows.Sublist snapshots.rows :=
      List.filter_sublist
    rw [Table.insert_eq_some.mp hinsert] at hsub
    simpa [Call.snapshot_rows, hcall] using hsub

/-- The missing row of `client_state` makes no difference. -/
theorem Fresh.of_ensure_client {env : Env} {db db' : DB} {call : Call} {client_id : Text} {now : ℚ}
    (h : Fresh env (ensure_client db client_id now) call db') : Fresh env db call db' := by
  obtain ⟨h1, h2, h3, h4, h5, h6, h7, h8, h9, h10⟩ := h
  simp only [last_seq_ensure_client, claim_set_ensure_client, ensure_client_events,
    ensure_client_snapshots, ensure_client_enforcement_state] at *
  exact ⟨h1, h2, h3, h4, h5, h6, h7, h8, h9, h10⟩

theorem apply_events_cons (env : Env) (db : DB) (client_id : Text) (first : Event)
    (rest : List Event) (claims_limit : ℕ) (now : ℚ) :
    apply_events env db client_id (first :: rest) claims_limit now =
      if ¬ seqs_increase (first :: rest) then
        (.error (.validation "event seq values must strictly increase".toList), db)
      else
        transaction db (apply_events_body env db client_id (first :: rest) first
          ((first :: rest).getLast (List.cons_ne_nil _ _)) claims_limit now) := rfl

theorem apply_events_outcome (env : Env) (db : DB) {call : Call} {es : List Event}
    (hcall : call.request = .events es) :
    Outcome env db call
      (apply_events env db call.client_id es call.claims_limit call.now).1
      (apply_events env db call.client_id es call.claims_limit call.now).2 := by
  cases es with
  | nil => exact Outcome.refused _
  | cons first rest =>
    rw [apply_events_cons]
    by_cases hinc : seqs_increase (first :: rest)
    swap
    · rw [if_pos hinc]
      exact Outcome.refused _
    rw [if_neg (not_not.mpr hinc)]
    have hpair := seqs_increase_iff.mp hinc
    have hne : first :: rest ≠ [] := List.cons_ne_nil _ _
    -- the numbers increase, so the first and the last one bound the batch
    have hfirst : ∀ s ∈ (first :: rest).map Event.seq, first.seq ≤ s := by
      intro s hs
      rw [List.map_cons, List.pairwise_cons] at hpair
      rcases List.mem_cons.mp hs with h | h
      · exact h.ge
      · exact (hpair.1 s h).le
    have hlast : ∀ s ∈ (first :: rest).map Event.seq, s ≤ ((first :: rest).getLast hne).seq := by
      intro s hs
      have hle := hpair.imp (fun h => h.le)
      have hget := List.Pairwise.rel_getLast hle hs
      rwa [List.getLast_map] at hget
    rcases transaction_cases db (apply_events_body env db call.client_id (first :: rest) first
      ((first :: rest).getLast hne) call.claims_limit call.now) with
      ⟨e, -, htx⟩ | ⟨result, db', hbody, htx⟩
    · rw [htx]
      exact Outcome.refused e
    rw [htx]
    rcases apply_events_body_eq_ok hbody with ⟨hstored, ⟨duplicate, rfl⟩, rfl⟩ | ⟨hboundary, hbody⟩
    · -- the whole batch is old
      have hold : ∀ s ∈ call.request.seqs, s ≤ last_seq db call.client_id := by
        rw [hcall]
        exact fun s hs => (hlast s hs).trans hstored
      have hseqs : call.request.seqs ≠ [] := by
        rw [hcall]
        simp [Request.seqs]
      exact Outcome.known duplicate hseqs hold rfl
    · -- the whole batch is new
      have hexists := client_exists_ensure_client db call.client_id call.now
      have hnew : ∀ s ∈ (first :: rest).map Event.seq,
          last_seq (ensure_client db call.client_id call.now) call.client_id < s := by
        intro s hs
        rw [last_seq_ensure_client]
        exact hboundary.trans_le (hfirst s hs)
      obtain ⟨rfl, hfresh⟩ := apply_fresh_events_spec hcall hne hpair hnew hexists hbody
      exact Outcome.fresh hfresh.of_ensure_client

theorem apply_snapshot_outcome (env : Env) (db : DB) {call : Call} {snapshot_id : Text} {seq : ℕ}
    {claims : List Claim} (hcall : call.request = .snapshot snapshot_id seq claims) :
    Outcome env db call
      (apply_snapshot env db call.client_id snapshot_id seq claims call.claims_limit call.now).1
      (apply_snapshot env db call.client_id snapshot_id seq claims call.claims_limit call.now).2 := by
  unfold apply_snapshot
  split
  · exact Outcome.refused _
  rename_i hlimit
  rcases transaction_cases db (apply_snapshot_body env db call.client_id snapshot_id seq claims
    call.now) with ⟨e, -, htx⟩ | ⟨result, db', hbody, htx⟩
  · rw [htx]
    exact Outcome.refused e
  rw [htx]
  have hseqs : call.request.seqs = [seq] := by rw [hcall]; rfl
  rcases apply_snapshot_body_eq_ok hbody with ⟨hstored, ⟨duplicate, rfl⟩, rfl⟩ | ⟨hnew, hbody⟩
  · have hne : call.request.seqs ≠ [] := by simp [hseqs]
    have hold : ∀ s ∈ call.request.seqs, s ≤ last_seq db call.client_id := by simpa [hseqs]
    exact Outcome.known duplicate hne hold rfl
  · have hexists := client_exists_ensure_client db call.client_id call.now
    have hseq : last_seq (ensure_client db call.client_id call.now) call.client_id < seq := by
      rw [last_seq_ensure_client]
      exact hnew
    obtain ⟨rfl, hfresh⟩ :=
      apply_fresh_snapshot_spec hcall (not_lt.mp hlimit) hseq hexists hbody
    exact Outcome.fresh hfresh.of_ensure_client

/-- **Every call is refused, old or fresh.** This is the only place where the exits of the two
transactions are looked at; runs, isolation, limits and delivery are derived from it. -/
theorem perform_outcome {env : Env} {db db' : DB} {call : Call}
    {result : Except StoreError ApplyResult} (h : call.perform env db = (result, db')) :
    Outcome env db call result db' := by
  cases hcall : call.request with
  | events es =>
    have houtcome := apply_events_outcome env db hcall
    simp only [Call.perform, hcall] at h
    rwa [h] at houtcome
  | snapshot snapshot_id seq claims =>
    have houtcome := apply_snapshot_outcome env db hcall
    simp only [Call.perform, hcall] at h
    rwa [h] at houtcome

end F2bguard.Store
