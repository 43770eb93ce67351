/-
When a call goes through.

A call is refused for what it says when it uses an identity otherwise than before, and
for how much there is when a limit is exceeded. Where nothing that is stored contradicts
it (`EventClean`, `SnapshotClean`) and the histories hold no number above the stored one
(`HistoryBelow`), only a limit can refuse it.

The limit of a client is compared with the count a batch leaves, whether or not the batch
made it grow: a client above its limit can release claims only when the batch brings it back
within the limit (`fresh_events_accepted_iff`).
-/
import F2bguard.Isolation

set_option autoImplicit false

namespace F2bguard.Store

open F2bguard.PyText F2bguard.PyJson F2bguard.Claims F2bguard.Tables F2bguard.Lifecycle

/-- The refusal of a limit. -/
def StoreError.IsLimit (e : StoreError) : Prop :=
  e = claims_per_client_exceeded ∨ e = global_limit_exceeded

/-- A client's histories hold numbers up to the stored one. -/
structure HistoryBelow (db : DB) (client_id : Text) : Prop where
  events : ∀ r ∈ db.events.rows, r.client_id = client_id → r.seq ≤ last_seq db client_id
  snapshots : ∀ r ∈ db.snapshots.rows, r.client_id = client_id → r.seq ≤ last_seq db client_id

/-- No stored row uses the identities of an event for something else. -/
structure EventClean (env : Env) (db : DB) (client_id : Text) (e : Event) : Prop where
  ids : ∀ r ∈ db.events.rows, r.id_key = (client_id, e.event_id) →
    r.seq = e.seq ∧ r.payload_hash = payload_hash env e.wire
  ip : ∀ ip, claim_ip db client_id e.jail e.ban_id = some ip → ip = e.ip

/-- The same for a snapshot, whose claims have to be distinct as well. -/
structure SnapshotClean (env : Env) (db : DB) (client_id snapshot_id : Text) (seq : ℕ)
    (claims : List Claim) : Prop where
  ids : ∀ r ∈ db.snapshots.rows, r.id_key = (client_id, snapshot_id) →
    r.seq = seq ∧ r.payload_hash = payload_hash env (snapshot_payload snapshot_id seq claims)
  ip : ∀ c ∈ claims, ∀ ip, claim_ip db client_id c.jail c.ban_id = some ip → ip = c.ip
  keys : (claims.map Claim.key).Nodup

theorem claim_ip_ensure_client (db : DB) (client_id : Text) (now : ℚ) (c jail ban_id : Text) :
    claim_ip (ensure_client db client_id now) c jail ban_id = claim_ip db c jail ban_id := by
  unfold claim_ip
  rw [ensure_client_claims]

theorem HistoryBelow.ensure_client {db : DB} {client_id : Text} (h : HistoryBelow db client_id)
    (now : ℚ) : HistoryBelow (ensure_client db client_id now) client_id := by
  refine ⟨?_, ?_⟩
  · rw [ensure_client_events, last_seq_ensure_client]
    exact h.events
  · rw [ensure_client_snapshots, last_seq_ensure_client]
    exact h.snapshots

/-! ## Events

An event that is clean and above the stored number passes every check of the body, goes through
its turn of the loop, and then meets the limits. The lemmas follow these steps. -/

theorem upsert_claim_ok {db : DB} {row : ClaimRow} (hexists : client_exists db row.client_id) :
    ∃ db', upsert_claim db row = .ok db' := by
  have hsome : (db.claims.upsert (fun r => r.key = row.key)
      (fun r => { r with
        ip := row.ip, permanent := row.permanent, expires_at := row.expires_at
        updated_at := row.updated_at }) row).isSome := by
    by_cases hany : db.claims.rows.any (fun r => r.key = row.key) = true
    · rw [Table.upsert_of_any hany, Table.update_eq_modify (upsert_claim_compat row)]
      rfl
    · rw [Bool.not_eq_true] at hany
      rw [Table.upsert_of_not_any hany, Table.insert_isSome]
      intro r hr
      have := List.any_eq_false.mp hany r hr
      exact fun h => this (decide_eq_true h)
  obtain ⟨claims, hclaims⟩ := Option.isSome_iff_exists.mp hsome
  refine ⟨{ db with claims }, ?_⟩
  unfold upsert_claim
  rw [if_pos hexists, hclaims]
  rfl

theorem apply_op_ok {client_id : Text} (now : ℚ) {db : DB} {e : Event}
    (hexists : client_exists db client_id)
    (hip : ∀ ip, claim_ip db client_id e.jail e.ban_id = some ip → ip = e.ip) :
    ∃ db', apply_op client_id now db e = .ok db' := by
  have hsame : ¬ (claim_ip db client_id e.jail e.ban_id).any (· ≠ e.ip) = true := by
    rw [Option.any_eq_true]
    rintro ⟨ip, hsome, hne⟩
    exact of_decide_eq_true hne (hip ip hsome)
  unfold apply_op
  cases hop : e.op with
  | ban =>
    dsimp only
    rw [if_neg hsame]
    exact upsert_claim_ok hexists
  | unban =>
    dsimp only
    rw [if_neg hsame]
    exact ⟨_, rfl⟩

theorem prior_event_mem {db : DB} {client_id : Text} {e : Event} {r : EventRow}
    (h : prior_event db client_id e = some r) :
    r ∈ db.events.rows ∧ r.id_key = (client_id, e.event_id) := Table.lookup_some_mem h

/-- A clean event above the stored number goes into the history. -/
theorem apply_event_ok (env : Env) {client_id : Text} (now : ℚ) {db : DB} {e : Event}
    (hexists : client_exists db client_id) (hbelow : HistoryBelow db client_id)
    (hclean : EventClean env db client_id e) (hnew : last_seq db client_id < e.seq) :
    ∃ db', apply_event env client_id now db e = .ok db' := by
  obtain ⟨db1, hop⟩ := apply_op_ok now hexists hclean.ip
  obtain ⟨claims, rfl, -⟩ := apply_op_spec hop
  have hsome : (db.events.insert (event_row env client_id now e)).isSome := by
    rw [Table.insert_isSome]
    intro r hr
    constructor
    · intro hid
      have hseq := (hclean.ids r hr hid).1
      have := hbelow.events r hr (congrArg Prod.fst hid)
      omega
    · intro hkey
      have hseq : r.seq = e.seq := congrArg Prod.snd hkey
      have := hbelow.events r hr (congrArg Prod.fst hkey)
      omega
  obtain ⟨events, hevents⟩ := Option.isSome_iff_exists.mp hsome
  refine ⟨{ db with claims, events }, ?_⟩
  unfold apply_event
  rw [hop]
  dsimp only [Except.bind]
  rw [hevents]
  rfl

theorem check_limits_error {db : DB} {client_id : Text} {limit : ℕ} {err : StoreError}
    (h : check_limits db client_id limit = .error err) : err.IsLimit := by
  unfold check_limits at h
  split at h
  · cases h
    exact Or.inl rfl
  · split at h
    · cases h
      exact Or.inr rfl
    · cases h

/-- Only a limit refuses a clean event. -/
theorem event_admitted (env : Env) (db : DB) (client_id : Text) (e : Event) (limit : ℕ) (now : ℚ)
    (hbelow : HistoryBelow db client_id) (hclean : EventClean env db client_id e)
    {err : StoreError} (h : (apply_events env db client_id [e] limit now).1 = .error err) :
    err.IsLimit := by
  have hexists := client_exists_ensure_client db client_id now
  have hclean' : EventClean env (ensure_client db client_id now) client_id e :=
    ⟨by rw [ensure_client_events]; exact hclean.ids,
      fun ip hip => hclean.ip ip (by rwa [claim_ip_ensure_client] at hip)⟩
  have hbelow' := hbelow.ensure_client now
  rw [apply_events_cons, if_neg (not_not.mpr (show seqs_increase [e] from List.isChain_singleton _))] at h
  rcases apply_events_body_eq_error (transaction_eq_error.mp h) with
    ⟨-, ⟨e', he', hreused⟩ | ⟨hle, hlt⟩ | ⟨hnew, e', he', hprior⟩⟩ | ⟨hnew, -, hbody⟩
  · -- the id is stored for this event
    rw [List.mem_singleton.mp he', event_reused, Option.any_eq_true] at hreused
    obtain ⟨r, hr, hne⟩ := hreused
    obtain ⟨hmem, hid⟩ := prior_event_mem hr
    obtain ⟨hseq, hhash⟩ := hclean.ids r hmem hid
    simp [hseq, hhash] at hne
  · exact absurd hlt (not_lt.mpr hle)
  · -- the stored numbers are below the new one
    rw [List.mem_singleton.mp he', Option.isSome_iff_exists] at hprior
    obtain ⟨r, hr⟩ := hprior
    obtain ⟨hmem, hid⟩ := prior_event_mem hr
    have hseq := (hclean.ids r hmem hid).1
    have := hbelow.events r hmem (congrArg Prod.fst hid)
    omega
  · rw [← last_seq_ensure_client db client_id now] at hnew
    obtain ⟨db2, happly⟩ := apply_event_ok env now hexists hbelow' hclean' hnew
    have hloop : [e].foldlM (apply_event env client_id now) (ensure_client db client_id now) = .ok db2 := by
      rw [List.foldlM_cons, happly]
      rfl
    unfold apply_fresh_events at hbody
    rw [hloop] at hbody
    exact check_limits_error (map_eq_error.mp hbody)

/-! ## Snapshots

A snapshot has more ways to be refused, because it brings claims with identities of their own.
`fresh_snapshot_error` lists them for a snapshot that is above the stored number. -/

theorem insert_claims_ok {client_id : Text} {now : ℚ} {claims : List Claim} : ∀ {db : DB},
    client_exists db client_id → (claims.map Claim.key).Nodup →
    (∀ r ∈ db.claims.rows, r.client_id = client_id → ∀ c ∈ claims, (r.jail, r.ban_id) ≠ c.key) →
      ∃ db', (claims.map (claim_row client_id now)).foldlM insert_claim db = .ok db' := by
  induction claims with
  | nil => intro db _ _ _; exact ⟨db, rfl⟩
  | cons c cs ih =>
    intro db hexists hkeys hnew
    rw [List.map_cons, List.nodup_cons] at hkeys
    have hsome : (db.claims.insert (claim_row client_id now c)).isSome := by
      rw [Table.insert_isSome]
      intro r hr hkey
      exact hnew r hr (congrArg Prod.fst hkey) c List.mem_cons_self (congrArg Prod.snd hkey)
    obtain ⟨t, ht⟩ := Option.isSome_iff_exists.mp hsome
    have hone : insert_claim db (claim_row client_id now c) = .ok { db with claims := t } := by
      unfold insert_claim
      rw [if_pos (show client_exists db (claim_row client_id now c).client_id from hexists), ht]
      rfl
    have hrows := Table.insert_eq_some.mp ht
    obtain ⟨db', hdb'⟩ := @ih { db with claims := t } hexists hkeys.2 (by
      intro r hr hclient x hx
      rw [hrows] at hr
      rcases List.mem_append.mp hr with hr | hr
      · exact hnew r hr hclient x (List.mem_cons_of_mem _ hx)
      · rw [List.mem_singleton.mp hr]
        intro hkey
        exact hkeys.1 (List.mem_map.mpr ⟨x, hx, hkey.symm⟩))
    refine ⟨db', ?_⟩
    rw [List.map_cons, List.foldlM_cons, hone]
    exact hdb'

/-- A row with an unused id and a number above the stored ones fits. -/
theorem snapshots_insert_isSome {db : DB} {client_id snapshot_id hash : Text} {seq : ℕ} {now : ℚ}
    (hbelow : HistoryBelow db client_id) (hnew : last_seq db client_id < seq)
    (hprior : db.snapshots.lookup SnapshotRow.id_key (client_id, snapshot_id) = none) :
    (db.snapshots.insert ⟨client_id, snapshot_id, seq, hash, now⟩).isSome := by
  rw [Table.insert_isSome]
  intro r hr
  constructor
  · exact Table.lookup_eq_none.mp hprior r hr
  · intro hkey
    have hseq : r.seq = seq := congrArg Prod.snd hkey
    have := hbelow.snapshots r hr (congrArg Prod.fst hkey)
    omega

/-- What refuses a snapshot with an unused id and a number above the stored ones: an address that
changes, or the global limit. -/
theorem fresh_snapshot_error {env : Env} {db : DB} {client_id snapshot_id : Text} {seq : ℕ}
    {claims : List Claim} {now : ℚ} {err : StoreError} (hexists : client_exists db client_id)
    (hbelow : HistoryBelow db client_id) (hnew : last_seq db client_id < seq)
    (hprior : db.snapshots.lookup SnapshotRow.id_key (client_id, snapshot_id) = none)
    (hkeys : (claims.map Claim.key).Nodup)
    (h : apply_fresh_snapshot env db client_id snapshot_id seq claims now = .error err) :
    (claims.any (fun c => (claim_ip db client_id c.jail c.ban_id).any (· ≠ c.ip)) = true ∧
      ∃ message, err = .conflict message) ∨ err = global_limit_exceeded := by
  unfold apply_fresh_snapshot at h
  split at h
  · rename_i hrebind
    cases h
    exact Or.inl ⟨hrebind, _, rfl⟩
  -- the client has no claims left, and the ids are distinct, so the loop goes through
  obtain ⟨db1, hloop⟩ := @insert_claims_ok client_id now claims (delete_claims db client_id)
    hexists hkeys (by
      intro r hr hclient
      exact absurd hclient (of_decide_eq_false (Table.mem_delete.mp hr).2))
  obtain ⟨t, rfl, -⟩ := foldlM_insert_claim hloop
  rw [hloop] at h
  dsimp only [Except.bind] at h
  split at h
  · cases h
    exact Or.inr rfl
  · obtain ⟨snapshots, hsnapshots⟩ := Option.isSome_iff_exists.mp
      (@snapshots_insert_isSome db client_id snapshot_id
        (payload_hash env (snapshot_payload snapshot_id seq claims)) seq now hbelow hnew hprior)
    have hrows : (delete_claims db client_id).snapshots = db.snapshots := rfl
    rw [hrows, hsnapshots] at h
    cases h

/-- Only a limit refuses a clean snapshot that is above the stored number. -/
theorem fresh_snapshot_admitted (env : Env) {db : DB} {client_id snapshot_id : Text} {seq : ℕ}
    {claims : List Claim} (now : ℚ) (hexists : client_exists db client_id)
    (hbelow : HistoryBelow db client_id)
    (hclean : SnapshotClean env db client_id snapshot_id seq claims)
    (hnew : last_seq db client_id < seq) {err : StoreError}
    (h : apply_fresh_snapshot env db client_id snapshot_id seq claims now = .error err) :
    err.IsLimit := by
  have hprior : db.snapshots.lookup SnapshotRow.id_key (client_id, snapshot_id) = none := by
    rw [Table.lookup_eq_none]
    intro r hr hid
    have hseq := (hclean.ids r hr hid).1
    have := hbelow.snapshots r hr (congrArg Prod.fst hid)
    omega
  rcases fresh_snapshot_error hexists hbelow hnew hprior hclean.keys h with ⟨hrebind, -⟩ | hlimit
  · rw [List.any_eq_true] at hrebind
    obtain ⟨c, hc, hany⟩ := hrebind
    rw [Option.any_eq_true] at hany
    obtain ⟨ip, hsome, hne⟩ := hany
    exact absurd (hclean.ip c hc ip hsome) (of_decide_eq_true hne)
  · exact Or.inr hlimit

theorem snapshot_admitted (env : Env) (db : DB) (client_id snapshot_id : Text) (seq : ℕ)
    (claims : List Claim) (limit : ℕ) (now : ℚ) (hbelow : HistoryBelow db client_id)
    (hclean : SnapshotClean env db client_id snapshot_id seq claims) {err : StoreError}
    (h : (apply_snapshot env db client_id snapshot_id seq claims limit now).1 = .error err) :
    err.IsLimit := by
  have hexists := client_exists_ensure_client db client_id now
  have hclean' : SnapshotClean env (ensure_client db client_id now) client_id snapshot_id seq claims :=
    ⟨by rw [ensure_client_snapshots]; exact hclean.ids,
      fun c hc ip hip => hclean.ip c hc ip (by rwa [claim_ip_ensure_client] at hip), hclean.keys⟩
  have hbelow' := hbelow.ensure_client now
  unfold apply_snapshot at h
  split at h
  · cases h
    exact Or.inl rfl
  rcases apply_snapshot_body_eq_error (transaction_eq_error.mp h) with ⟨-, hreused⟩ | ⟨hnew, -, hbody⟩
  · rw [Option.any_eq_true] at hreused
    obtain ⟨r, hr, hne⟩ := hreused
    obtain ⟨hmem, hid⟩ := Table.lookup_some_mem hr
    obtain ⟨hseq, hhash⟩ := hclean.ids r hmem hid
    simp [hseq, hhash] at hne
  · rw [← last_seq_ensure_client db client_id now] at hnew
    exact fresh_snapshot_admitted env now hexists hbelow' hclean' hnew hbody

/-! ## The count of a client

What a batch does to the number of claims. The rows of a client and those of all others are
counted apart, so that the limit of the client can be decided without the other clients; the
global one never refuses a batch that does not raise the count (`total_claims_le`). -/

/-- The claims of everybody else. -/
def other_claims (db : DB) (client_id : Text) : List ClaimRow :=
  db.claims.rows.filter (fun r => ¬ r.client_id = client_id)

theorem total_claims_eq (db : DB) (client_id : Text) :
    total_claims db = claim_count db client_id + (other_claims db client_id).length := by
  rw [total_claims, claim_count, other_claims, ← List.countP_eq_length_filter,
    ← List.countP_eq_length_filter]
  simpa using List.length_eq_countP_add_countP (l := db.claims.rows)
    (fun r : ClaimRow => decide (r.client_id = client_id))

theorem other_claims_apply_op {client_id : Text} {now : ℚ} {db db' : DB} {e : Event}
    (h : apply_op client_id now db e = .ok db') :
    (other_claims db' client_id).length = (other_claims db client_id).length := by
  unfold apply_op at h
  cases hop : e.op with
  | ban =>
    simp only [hop] at h
    split at h
    · cases h
    · unfold upsert_claim at h
      split at h
      · obtain ⟨claims, hclaims, rfl⟩ := map_eq_ok.mp h
        rw [constrained_eq_ok] at hclaims
        by_cases hany : db.claims.rows.any
            (fun r => r.key = (ban_row client_id now e).key) = true
        · rw [Table.upsert_of_any hany] at hclaims
          rw [other_claims, other_claims, Table.update_eq_some.mp hclaims, List.filter_map,
            List.length_map]
          congr 2
          funext r
          simp only [Function.comp_apply]
          split <;> rfl
        · rw [Bool.not_eq_true] at hany
          rw [Table.upsert_of_not_any hany] at hclaims
          rw [other_claims, Table.insert_eq_some.mp hclaims, List.filter_append, List.length_append]
          simp [ban_row, other_claims]
      · cases h
  | unban =>
    simp only [hop] at h
    split at h
    · cases h
    · cases h
      rw [other_claims, Table.rows_delete, List.filter_filter, other_claims]
      congr 1
      apply List.filter_congr
      intro r _
      by_cases hclient : r.client_id = client_id
      · simp [hclient]
      · have hkey : ¬ r.key = (client_id, e.jail, e.ban_id) := fun h => hclient (congrArg Prod.fst h)
        simp [hclient, hkey]

theorem other_claims_apply_events {env : Env} {client_id : Text} {now : ℚ} {events : List Event} :
    ∀ {db db' : DB}, events.foldlM (apply_event env client_id now) db = .ok db' →
      (other_claims db' client_id).length = (other_claims db client_id).length := by
  induction events with
  | nil =>
    intro db db' h
    cases h
    rfl
  | cons e es ih =>
    intro db db' h
    rw [List.foldlM_cons] at h
    obtain ⟨db1, he, hes⟩ := bind_eq_ok.mp h
    obtain ⟨db2, hop, hinsert⟩ := bind_eq_ok.mp he
    obtain ⟨t, ht, rfl⟩ := map_eq_ok.mp hinsert
    have hturn : (other_claims db2 client_id).length = (other_claims db client_id).length :=
      other_claims_apply_op hop
    exact (ih hes).trans hturn

/-- The total never grows beyond the constant. -/
theorem total_claims_le {env : Env} {db : DB} (h : Reachable env db) :
    total_claims db ≤ MAX_TOTAL_CLAIMS := by
  obtain ⟨actions, rfl⟩ := h
  refine run_invariant (P := fun db => total_claims db ≤ MAX_TOTAL_CLAIMS) ?_ (Nat.zero_le _) actions
  intro db a hle
  cases a with
  | call call =>
    rcases hp : call.perform env db with ⟨result, db'⟩
    rw [Action.perform, hp]
    cases perform_outcome hp with
    | refused e => exact hle
    | known duplicate hne hold hdb =>
      rw [hdb, total_claims, ensure_client_claims]
      exact hle
    | fresh h => exact h.total
  | _ => exact hle

/-- A batch that nothing but a limit can refuse: it is fresh, its identities are new, and the
loop over its events leads to `db'`. -/
structure Acceptable (env : Env) (db : DB) (client_id : Text) (events : List Event) (now : ℚ)
    (db' : DB) : Prop where
  nonempty : events ≠ []
  increasing : seqs_increase events
  newer : ∀ e ∈ events, last_seq db client_id < e.seq
  unused : ∀ e ∈ events, prior_event db client_id e = none
  applied : events.foldlM (apply_event env client_id now) (ensure_client db client_id now) = .ok db'

/-- A batch above the stored number whose identities are new comes to the loop. -/
theorem apply_events_new (env : Env) {db : DB} {client_id : Text} {events : List Event}
    (hne : events ≠ []) (hinc : seqs_increase events)
    (hnewer : ∀ e ∈ events, last_seq db client_id < e.seq)
    (hunused : ∀ e ∈ events, prior_event db client_id e = none) (limit : ℕ) (now : ℚ) :
    apply_events env db client_id events limit now =
      transaction db (apply_fresh_events env (ensure_client db client_id now) client_id events
        (events.getLast hne).seq limit now) := by
  cases events with
  | nil => exact absurd rfl hne
  | cons first rest =>
    have hreused : ¬ (first :: rest).any
        (event_reused env (ensure_client db client_id now) client_id) = true := by
      rw [List.any_eq_true]
      rintro ⟨e, he, hany⟩
      rw [event_reused, prior_event_ensure_client, hunused e he] at hany
      cases hany
    have hold : ¬ first.seq ≤ last_seq (ensure_client db client_id now) client_id := by
      rw [last_seq_ensure_client]
      exact not_le.mpr (hnewer first List.mem_cons_self)
    have hprior : ¬ (first :: rest).any
        (fun e => (prior_event (ensure_client db client_id now) client_id e).isSome) = true := by
      rw [List.any_eq_true]
      rintro ⟨e, he, hany⟩
      rw [prior_event_ensure_client, hunused e he] at hany
      cases hany
    rw [apply_events_cons, if_neg (not_not.mpr hinc)]
    unfold apply_events_body
    dsimp only
    rw [if_neg hreused, if_neg hold, if_neg hprior]

/-- What is left of `apply_events` is the check of the limits. -/
theorem Acceptable.apply_events {env : Env} {db db' : DB} {client_id : Text} {events : List Event}
    {now : ℚ} (h : Acceptable env db client_id events now db') (limit : ℕ) :
    (apply_events env db client_id events limit now).1 =
      (check_limits db' client_id limit).map (fun _ =>
        ⟨true, false, false, (events.getLast h.nonempty).seq⟩) := by
  rw [apply_events_new env h.nonempty h.increasing h.newer h.unused]
  unfold apply_fresh_events
  rw [h.applied]
  dsimp only [Except.bind]
  cases check_limits db' client_id limit <;> rfl

theorem length_delete_one {t : Table ClaimRow ClaimRow.Compat} {p : ClaimRow → Bool} {r : ClaimRow}
    (hr : r ∈ t.rows) (hp : p r = true) (hkey : ∀ x ∈ t.rows, p x = true → x.key = r.key) :
    (t.delete p).rows.length + 1 = t.rows.length := by
  have hnodup : t.rows.Nodup := t.distinct.imp (fun h heq => h (congrArg ClaimRow.key heq))
  have hone : (t.rows.filter p).Perm [r] := by
    rw [List.perm_ext_iff_of_nodup (hnodup.filter _) (List.nodup_singleton r)]
    intro x
    rw [List.mem_filter, List.mem_singleton]
    constructor
    · rintro ⟨hx, hpx⟩
      exact Table.eq_of_key claims_unique hx hr (hkey x hx hpx)
    · rintro rfl
      exact ⟨hr, hp⟩
  have hlen := hone.length_eq
  have hsum := List.length_eq_countP_add_countP (l := t.rows) p
  rw [List.countP_eq_length_filter, List.countP_eq_length_filter, hlen] at hsum
  rw [Table.rows_delete, hsum, List.length_singleton, Nat.add_comm]
  congr 2
  apply List.filter_congr
  intro x _
  simp

/-- Releasing a claim of the client takes one row away. -/
theorem claim_count_release {client_id : Text} {now : ℚ} {db db' : DB} {e : Event}
    (hop : e.op = .unban) (hmatch : claim_ip db client_id e.jail e.ban_id = some e.ip)
    (h : apply_op client_id now db e = .ok db') :
    claim_count db' client_id + 1 = claim_count db client_id := by
  have hothers := other_claims_apply_op h
  obtain ⟨r, hr, hip⟩ := Option.map_eq_some_iff.mp hmatch
  obtain ⟨hmem, hkey⟩ := Table.lookup_some_mem hr
  unfold apply_op at h
  simp only [hop] at h
  split at h
  · cases h
  · cases h
    have htotal := length_delete_one (p := fun x => decide (x.key = (client_id, e.jail, e.ban_id) ∧
      x.ip = e.ip)) hmem (decide_eq_true ⟨hkey, hip⟩)
      (fun x _ hx => (of_decide_eq_true hx).1.trans hkey.symm)
    have hbefore := total_claims_eq db client_id
    have hafter := total_claims_eq { db with claims := db.claims.delete (fun x =>
      decide (x.key = (client_id, e.jail, e.ban_id) ∧ x.ip = e.ip)) } client_id
    rw [total_claims] at hbefore hafter
    rw [hothers] at hafter
    simp only at hafter
    omega

/-- A batch of releases of different claims takes as many rows away. -/
theorem claim_count_releases {env : Env} {client_id : Text} {now : ℚ} {events : List Event} :
    ∀ {db db' : DB}, (∀ e ∈ events, e.op = .unban) →
      (∀ e ∈ events, claim_ip db client_id e.jail e.ban_id = some e.ip) →
      (events.map (fun e => (e.jail, e.ban_id))).Nodup →
      events.foldlM (apply_event env client_id now) db = .ok db' →
        claim_count db' client_id + events.length = claim_count db client_id := by
  induction events with
  | nil =>
    intro db db' _ _ _ h
    cases h
    rfl
  | cons e es ih =>
    intro db db' hops hmatch hkeys h
    rw [List.foldlM_cons] at h
    obtain ⟨db1, he, hes⟩ := bind_eq_ok.mp h
    have happlied := apply_event_spec he
    obtain ⟨db2, hop, hinsert⟩ := bind_eq_ok.mp he
    obtain ⟨t, ht, rfl⟩ := map_eq_ok.mp hinsert
    rw [List.forall_mem_cons] at hops hmatch
    rw [List.map_cons, List.nodup_cons] at hkeys
    have hturn : claim_count db2 client_id + 1 = claim_count db client_id :=
      claim_count_release hops.1 hmatch.1 hop
    have hone : claim_count { db2 with events := t } client_id = claim_count db2 client_id := rfl
    have hrest := ih hops.2 (by
      intro x hx
      -- the claims of the other events are still there
      rw [claim_ip_eq, happlied.claims client_id, if_pos rfl, List.map_singleton, applyAll_cons,
        applyAll_nil, Event.change, hops.1, Change.apply, Function.update_of_ne, ← claim_ip_eq]
      · exact hmatch.2 x hx
      · intro hsame
        exact hkeys.1 (List.mem_map.mpr ⟨x, hx, hsame⟩)) hkeys.2 hes
    rw [List.length_cons]
    omega

/-- **When a batch that does not grow is accepted.** A batch that is acceptable otherwise and does
not raise the client's count is accepted exactly when the count it leaves is within the limit; the
other limit never refuses it. For releases of claims that are there, the count it leaves is
smaller by their number. So a client that is above a limit which was lowered has to release enough
claims at once. -/
theorem fresh_events_accepted_iff (env : Env) (db db' : DB) (client_id : Text) (events : List Event)
    (limit : ℕ) (now : ℚ) (hreachable : Reachable env db)
    (h : Acceptable env db client_id events now db')
    (hcount : claim_count db' client_id ≤ claim_count db client_id) :
    ((∃ result, (apply_events env db client_id events limit now).1 = .ok result) ↔
        claim_count db' client_id ≤ limit) ∧
      (limit < claim_count db' client_id →
        (apply_events env db client_id events limit now).1 = .error claims_per_client_exceeded) ∧
      ((∀ e ∈ events, e.op = .unban) →
        (∀ e ∈ events, claim_ip db client_id e.jail e.ban_id = some e.ip) →
        (events.map (fun e => (e.jail, e.ban_id))).Nodup →
          claim_count db' client_id + events.length = claim_count db client_id) := by
  have hothers := other_claims_apply_events h.applied
  have hbefore := total_claims_eq db client_id
  have hafter := total_claims_eq db' client_id
  have hle := total_claims_le hreachable
  have hsame : other_claims (ensure_client db client_id now) client_id =
      other_claims db client_id := by
    rw [other_claims, other_claims, ensure_client_claims]
  rw [hsame] at hothers
  have htotal : ¬ MAX_TOTAL_CLAIMS < total_claims db' := by omega
  have hrun := h.apply_events limit
  refine ⟨?_, ?_, ?_⟩
  · rw [hrun, check_limits]
    by_cases hlimit : limit < claim_count db' client_id
    · rw [if_pos hlimit]
      constructor
      · rintro ⟨_, hx⟩
        cases hx
      · intro hx
        omega
    · rw [if_neg hlimit, if_neg htotal]
      exact ⟨fun _ => not_lt.mp hlimit, fun _ => ⟨_, rfl⟩⟩
  · intro hlimit
    rw [hrun, check_limits, if_pos hlimit]
    rfl
  · intro hops hmatch hkeys
    have hcounts := claim_count_releases hops (by
      intro e he
      rw [claim_ip_ensure_client]
      exact hmatch e he) hkeys h.applied
    rwa [claim_count, claim_count, ensure_client_claims] at hcounts

/-! ## A limit that was lowered

The smallest case of a release that is refused: three claims, a limit of one, one release. -/

/-- Three bans at once. -/
def sample_bans : Call :=
  ⟨"a".toList, .events ([1, 2, 3].map (fun n => ⟨[Char.ofNat (48 + n)], n, .ban, "sshd".toList,
    [Char.ofNat (96 + n)], "192.0.2.1".toList, some true, none⟩)), 3, 0⟩

/-- The first of them is released. -/
def sample_unban : Event :=
  ⟨"4".toList, 4, .unban, "sshd".toList, "a".toList, "192.0.2.1".toList, none, none⟩

def sample_full : DB := run sample_env DB.initial [.call sample_bans]

theorem sample_full_reachable : Reachable sample_env sample_full := ⟨_, rfl⟩

/-- Two claims are left after the release. -/
theorem sample_unban_acceptable : ∃ db',
    Acceptable sample_env sample_full "a".toList [sample_unban] 1 db' ∧
      claim_count db' "a".toList = 2 := by
  have hcount : ([sample_unban].foldlM (apply_event sample_env "a".toList 1)
      (ensure_client sample_full "a".toList 1)).toOption.map (fun db => claim_count db "a".toList) =
        some 2 := by decide +kernel
  rcases hloop : [sample_unban].foldlM (apply_event sample_env "a".toList 1)
    (ensure_client sample_full "a".toList 1) with e | db'
  · rw [hloop] at hcount
    cases hcount
  · rw [hloop] at hcount
    exact ⟨db', ⟨by decide, by decide, by decide +kernel, by decide +kernel, hloop⟩,
      Option.some.inj hcount⟩

/-- The release is accepted where the limit is two. -/
theorem fresh_events_accepted_unban : ∃ result,
    (apply_events sample_env sample_full "a".toList [sample_unban] 2 1).1 = .ok result := by
  obtain ⟨db', hacc, hcount⟩ := sample_unban_acceptable
  have hbefore : claim_count sample_full "a".toList = 3 := by decide +kernel
  exact (fresh_events_accepted_iff sample_env sample_full db' "a".toList [sample_unban] 2 1
    sample_full_reachable hacc (by omega)).1.mpr hcount.le

/-- Three claims were made under a limit of three. Under a limit of one, releasing one of
them is refused. -/
theorem release_over_limit_refused :
    Reachable sample_env sample_full ∧ sample_unban.op = .unban ∧
    claim_ip sample_full "a".toList sample_unban.jail sample_unban.ban_id = some sample_unban.ip ∧
    (∃ db', Acceptable sample_env sample_full "a".toList [sample_unban] 1 db' ∧
      claim_count db' "a".toList ≤ claim_count sample_full "a".toList) ∧
    (apply_events sample_env sample_full "a".toList [sample_unban] 1 1).1 =
      .error claims_per_client_exceeded := by
  refine ⟨sample_full_reachable, rfl, by decide +kernel, ?_, by decide +kernel⟩
  obtain ⟨db', hacc, hcount⟩ := sample_unban_acceptable
  have hbefore : claim_count sample_full "a".toList = 3 := by decide +kernel
  exact ⟨db', hacc, by omega⟩

end F2bguard.Store
