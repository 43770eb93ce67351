/-
No statement of a request breaks a constraint.

`INSERT INTO events` and `INSERT INTO snapshots` do not look at what is there. That their rows
fit follows from `HistoryBelow`: the histories of a client hold no number above its `last_seq`,
in every store that can be reached, whatever was pruned and whatever the clock said
(`reachable_history_below`). A fresh batch is numbered above `last_seq` and its identities are
not in the history, so its rows are `Insertable`, and each turn of the loop leaves the rest of
the batch insertable. What can refuse a turn is then only the check of the address.
-/
import F2bguard.Desired

set_option autoImplicit false

namespace F2bguard.Store

open F2bguard.PyText F2bguard.PyJson F2bguard.Claims F2bguard.Tables F2bguard.Lifecycle

/-! ## The histories and the stored number

`last_seq` is raised in the transaction that adds the rows, and nothing lowers it. Pruning and
truncation only remove rows. Therefore the bound survives every action. -/

theorem mem_event_rows {env : Env} {call : Call} {r : EventRow} (h : r ∈ call.event_rows env) :
    r.client_id = call.client_id ∧ r.seq ∈ call.request.seqs := by
  unfold Call.event_rows at h
  split at h
  · rename_i es hrequest
    obtain ⟨e, he, rfl⟩ := List.mem_map.mp h
    rw [hrequest]
    exact ⟨rfl, List.mem_map.mpr ⟨e, he, rfl⟩⟩
  · cases h

theorem mem_snapshot_rows {env : Env} {call : Call} {r : SnapshotRow}
    (h : r ∈ call.snapshot_rows env) :
    r.client_id = call.client_id ∧ r.seq ∈ call.request.seqs := by
  unfold Call.snapshot_rows at h
  split at h
  · cases h
  · rename_i hrequest
    rw [List.mem_singleton.mp h, hrequest]
    exact ⟨rfl, List.mem_singleton.mpr rfl⟩

section Fresh

variable {env : Env} {db db' : DB} {call : Call}

theorem Fresh.le_highest (h : Fresh env db call db') : ∀ s ∈ call.request.seqs, s ≤ call.request.highest := by
  intro s hs
  have hlast := List.Pairwise.rel_getLast (h.increasing.imp (fun h => h.le)) hs
  rw [Request.highest, List.getLast?_eq_some_getLast h.nonempty]
  exact hlast

theorem Fresh.last_seq_le (h : Fresh env db call db') (c : Text) :
    Store.last_seq db c ≤ Store.last_seq db' c := by
  rw [h.last_seq c]
  split
  · rename_i hc
    obtain ⟨s, hs⟩ := List.exists_mem_of_ne_nil _ h.nonempty
    rw [hc]
    exact (h.newer s hs).le.trans (h.le_highest s hs)
  · exact le_rfl

/-- A number of the request is at most the stored one afterwards. -/
theorem Fresh.seq_le (h : Fresh env db call db') {s : ℕ} (hs : s ∈ call.request.seqs) :
    s ≤ Store.last_seq db' call.client_id := by
  rw [h.last_seq, if_pos rfl]
  exact h.le_highest s hs

theorem Fresh.history_below (h : Fresh env db call db') {c : Text} (hbelow : HistoryBelow db c) :
    HistoryBelow db' c := by
  refine ⟨fun r hr hclient => ?_, fun r hr hclient => ?_⟩
  · rcases List.mem_append.mp (h.events.subset hr) with hold | hnew
    · exact (hbelow.events r hold hclient).trans (h.last_seq_le c)
    · obtain ⟨hcall, hseq⟩ := mem_event_rows hnew
      rw [← hclient, hcall]
      exact h.seq_le hseq
  · rcases List.mem_append.mp (h.snapshots.subset hr) with hold | hnew
    · exact (hbelow.snapshots r hold hclient).trans (h.last_seq_le c)
    · obtain ⟨hcall, hseq⟩ := mem_snapshot_rows hnew
      rw [← hclient, hcall]
      exact h.seq_le hseq

end Fresh

theorem history_below_ensure_client {db : DB} {c : Text} (h : HistoryBelow db c) (client_id : Text)
    (now : ℚ) : HistoryBelow (ensure_client db client_id now) c := by
  refine ⟨?_, ?_⟩
  · rw [ensure_client_events, last_seq_ensure_client]
    exact h.events
  · rw [ensure_client_snapshots, last_seq_ensure_client]
    exact h.snapshots

theorem HistoryBelow.perform {env : Env} {db : DB} {c : Text} (h : HistoryBelow db c) (call : Call) :
    HistoryBelow (call.perform env db).2 c := by
  rcases hp : call.perform env db with ⟨result, db'⟩
  cases perform_outcome hp with
  | refused e => exact h
  | known duplicate hne hold hdb =>
    rw [hdb]
    exact history_below_ensure_client h _ _
  | fresh hfresh => exact hfresh.history_below h

theorem HistoryBelow.prune {env : Env} {db : DB} {c : Text} (h : HistoryBelow db c) (now : ℚ) :
    HistoryBelow (prune_history env db now).2 c :=
  ⟨fun r hr => h.events r (Table.mem_delete.mp hr).1,
    fun r hr => h.snapshots r (Table.mem_delete.mp hr).1⟩

theorem HistoryBelow.initial (c : Text) : HistoryBelow DB.initial c :=
  ⟨fun _ hr => (by cases hr), fun _ hr => (by cases hr)⟩

theorem reachable_history_below {env : Env} {db : DB} (h : Reachable env db) (c : Text) :
    HistoryBelow db c := by
  obtain ⟨actions, rfl⟩ := h
  refine run_invariant (P := fun db => HistoryBelow db c) ?_ (HistoryBelow.initial c) actions
  intro db a hbelow
  cases a with
  | call call => exact hbelow.perform call
  | prune now => exact hbelow.prune now
  | attempt digest now => exact ⟨hbelow.events, hbelow.snapshots⟩
  | success digest applied ipv4 ipv6 now => exact ⟨hbelow.events, hbelow.snapshots⟩
  | failure digest error now => exact ⟨hbelow.events, hbelow.snapshots⟩

/-! ## The loop over the events

The rows that are still to come fit before each turn, and a turn that succeeds adds a row they do
not clash with. -/

/-- The rows of a batch fit: their client is there, and no row of its history nor another one of
the batch has an identity or a number of theirs. -/
structure Insertable (db : DB) (client_id : Text) (es : List Event) : Prop where
  client : client_exists db client_id
  free : ∀ r ∈ db.events.rows, r.client_id = client_id →
    ∀ e ∈ es, r.event_id ≠ e.event_id ∧ r.seq ≠ e.seq
  distinct : es.Pairwise (fun e e' => e.event_id ≠ e'.event_id ∧ e.seq ≠ e'.seq)

section Insertable

variable {env : Env} {client_id : Text} {now : ℚ} {db db' : DB} {e : Event} {es : List Event}

theorem Insertable.insert_isSome (h : Insertable db client_id (e :: es)) (env : Env) (now : ℚ) :
    (db.events.insert (event_row env client_id now e)).isSome := by
  rw [Table.insert_isSome]
  intro r hr
  constructor
  · intro hid
    exact (h.free r hr (congrArg Prod.fst hid) e List.mem_cons_self).1 (congrArg Prod.snd hid)
  · intro hseq
    exact (h.free r hr (congrArg Prod.fst hseq) e List.mem_cons_self).2 (congrArg Prod.snd hseq)

theorem Insertable.step (h : Insertable db client_id (e :: es))
    (happly : apply_event env client_id now db e = .ok db') : Insertable db' client_id es := by
  have happlied := apply_event_spec happly
  obtain ⟨hfirst, hrest⟩ := List.pairwise_cons.mp h.distinct
  refine ⟨?_, ?_, hrest⟩
  · rw [client_exists, happlied.client_state]
    exact h.client
  · rw [happlied.events]
    intro r hr hclient e' he'
    rcases List.mem_append.mp hr with hold | hnew
    · exact h.free r hold hclient e' (List.mem_cons_of_mem _ he')
    · -- the row that this turn has added
      rw [List.map_singleton, List.mem_singleton] at hnew
      rw [hnew]
      exact hfirst e' he'

theorem apply_op_refused {err : StoreError} (hclient : client_exists db client_id)
    (h : apply_op client_id now db e = .error err) : ∃ message, err = .conflict message := by
  unfold apply_op at h
  cases hop : e.op with
  | ban =>
    simp only [hop] at h
    split at h
    · cases h
      exact ⟨_, rfl⟩
    · obtain ⟨db1, hok⟩ := @upsert_claim_ok db (ban_row client_id now e) hclient
      rw [hok] at h
      cases h
  | unban =>
    simp only [hop] at h
    split at h
    · cases h
      exact ⟨_, rfl⟩
    · cases h

/-- An insertable event is refused by its claim half or not at all. -/
theorem Insertable.apply_event_eq (h : Insertable db client_id (e :: es)) (env : Env) (now : ℚ) :
    ∃ events : Table EventRow EventRow.Compat, apply_event env client_id now db e =
      (apply_op client_id now db e).map (fun db1 => { db1 with events }) := by
  obtain ⟨events, hevents⟩ := Option.isSome_iff_exists.mp (h.insert_isSome env now)
  refine ⟨events, ?_⟩
  unfold apply_event
  cases hop : apply_op client_id now db e with
  | error err => rfl
  | ok db1 =>
    obtain ⟨claims, rfl, -⟩ := apply_op_spec hop
    dsimp only [Except.bind, Except.map]
    rw [hevents]
    rfl

theorem Insertable.loop_refused {err : StoreError} : ∀ {db : DB}, Insertable db client_id es →
    es.foldlM (apply_event env client_id now) db = .error err →
      ∃ message, err = .conflict message := by
  induction es with
  | nil => intro db _ h; cases h
  | cons e es ih =>
    intro db hins h
    rw [List.foldlM_cons] at h
    rcases bind_eq_error.mp h with hturn | ⟨db1, hturn, hrest⟩
    · obtain ⟨events, heq⟩ := hins.apply_event_eq env now
      rw [heq] at hturn
      exact apply_op_refused hins.client (map_eq_error.mp hturn)
    · exact ih (hins.step hturn) hrest

/-- A batch above the stored number whose identities are not in the history. -/
theorem insertable_of_new (hclient : client_exists db client_id)
    (hbelow : HistoryBelow db client_id) (hnew : ∀ e ∈ es, last_seq db client_id < e.seq)
    (hunused : ∀ e ∈ es, prior_event db client_id e = none) (hinc : seqs_increase es)
    (hids : (es.map Event.event_id).Nodup) : Insertable db client_id es := by
  refine ⟨hclient, fun r hr hrow e he => ⟨fun hid => ?_, fun hseq => ?_⟩, ?_⟩
  · exact Table.lookup_eq_none.mp (hunused e he) r hr (Prod.ext hrow hid)
  · have := hbelow.events r hr hrow
    have := hnew e he
    omega
  · have hseqs := List.pairwise_map.mp (seqs_increase_iff.mp hinc)
    exact (List.pairwise_map.mp hids).and (hseqs.imp (fun h => h.ne))

end Insertable

/-! ## Validated requests

A validated snapshot repeats no identity and a validated batch counts up, so that their rows do
not clash among themselves either. -/

theorem validate_events_ok {raw : Json} {maximum : ℕ} {es : List Event}
    (h : validate_events raw maximum = .ok es) :
    es ≠ [] ∧ seqs_increase es ∧ (es.map Event.event_id).Nodup := by
  unfold validate_events at h
  split at h
  · cases h
  · rename_i raws hne
    dsimp only at h
    split at h
    · cases h
    · obtain ⟨events, hevents, h⟩ := bind_eq_ok.mp h
      split at h
      · cases h
      · rename_i hinc
        split at h
        · cases h
        · rename_i hids
          cases h
          refine ⟨?_, not_not.mp hinc, not_not.mp hids⟩
          cases raws with
          | nil => exact absurd rfl hne
          | cons first rest =>
            rw [List.mapM_cons] at hevents
            obtain ⟨e, -, hevents⟩ := bind_eq_ok.mp hevents
            obtain ⟨es', -, hevents⟩ := bind_eq_ok.mp hevents
            cases hevents
            exact List.cons_ne_nil _ _
  · cases h

theorem validate_snapshot_keys {raw_id raw_seq raw : Json} {maximum : ℕ}
    {result : Text × ℕ × List Claim}
    (h : validate_snapshot raw_id raw_seq raw maximum = .ok result) :
    (result.2.2.map Claim.key).Nodup := by
  unfold validate_snapshot at h
  obtain ⟨parsed_id, -, h⟩ := bind_eq_ok.mp h
  obtain ⟨parsed_seq, -, h⟩ := bind_eq_ok.mp h
  cases raw with
  | arr raws =>
    dsimp only at h
    split at h
    · cases h
    · obtain ⟨claims, -, h⟩ := bind_eq_ok.mp h
      split at h
      · cases h
      · rename_i hkeys
        cases h
        exact not_not.mp hkeys
  | _ => cases h

/-- `StoreConflict` or `StoreLimit`. -/
def StoreError.Declared (err : StoreError) : Prop :=
  (∃ message, err = .conflict message) ∨ ∃ message, err = .limit message

theorem StoreError.IsLimit.declared {err : StoreError} (h : err.IsLimit) : err.Declared := by
  rcases h with rfl | rfl
  · exact .inr ⟨_, rfl⟩
  · exact .inr ⟨_, rfl⟩

theorem apply_events_refused {env : Env} {db : DB} {client_id : Text} {es : List Event} {limit : ℕ}
    {now : ℚ} {err : StoreError} (hbelow : HistoryBelow db client_id) (hne : es ≠ [])
    (hinc : seqs_increase es) (hids : (es.map Event.event_id).Nodup)
    (h : (apply_events env db client_id es limit now).1 = .error err) : err.Declared := by
  cases es with
  | nil => exact absurd rfl hne
  | cons first rest =>
    rw [apply_events_cons, if_neg (not_not.mpr hinc)] at h
    rcases apply_events_body_eq_error (transaction_eq_error.mp h) with
      ⟨hconflict, -⟩ | ⟨hnew, hunused, hbody⟩
    · exact .inl hconflict
    have hclient := client_exists_ensure_client db client_id now
    have hbelow' := hbelow.ensure_client now
    have hfirst : ∀ e ∈ first :: rest, first.seq ≤ e.seq := by
      have hseqs := List.pairwise_map.mp (seqs_increase_iff.mp hinc)
      intro e he
      rcases List.mem_cons.mp he with rfl | he
      · exact le_rfl
      · exact ((List.pairwise_cons.mp hseqs).1 e he).le
    rw [← last_seq_ensure_client db client_id now] at hnew
    have hins := insertable_of_new hclient hbelow' (fun e he => hnew.trans_le (hfirst e he))
      (fun e he => (prior_event_ensure_client db client_id client_id now e).trans (hunused e he))
      hinc hids
    rcases bind_eq_error.mp hbody with hloop | ⟨db2, -, hlimits⟩
    · exact .inl (hins.loop_refused hloop)
    · exact (check_limits_error (map_eq_error.mp hlimits)).declared

theorem apply_fresh_snapshot_refused {env : Env} {db : DB} {client_id snapshot_id : Text} {seq : ℕ}
    {claims : List Claim} {now : ℚ} {err : StoreError} (hclient : client_exists db client_id)
    (hbelow : HistoryBelow db client_id) (hnew : last_seq db client_id < seq)
    (hprior : db.snapshots.lookup SnapshotRow.id_key (client_id, snapshot_id) = none)
    (hkeys : (claims.map Claim.key).Nodup)
    (h : apply_fresh_snapshot env db client_id snapshot_id seq claims now = .error err) :
    err.Declared := by
  rcases fresh_snapshot_error hclient hbelow hnew hprior hkeys h with ⟨-, hconflict⟩ | hlimit
  · exact .inl hconflict
  · exact .inr ⟨_, hlimit⟩

theorem apply_snapshot_refused {env : Env} {db : DB} {client_id snapshot_id : Text} {seq : ℕ}
    {claims : List Claim} {limit : ℕ} {now : ℚ} {err : StoreError}
    (hbelow : HistoryBelow db client_id) (hkeys : (claims.map Claim.key).Nodup)
    (h : (apply_snapshot env db client_id snapshot_id seq claims limit now).1 = .error err) :
    err.Declared := by
  unfold apply_snapshot at h
  split at h
  · cases h
    exact .inr ⟨_, rfl⟩
  rcases apply_snapshot_body_eq_error (transaction_eq_error.mp h) with
    ⟨hconflict, -⟩ | ⟨hnew, hreused, hbody⟩
  · exact .inl hconflict
  have hclient := client_exists_ensure_client db client_id now
  have hbelow' := hbelow.ensure_client now
  rw [← last_seq_ensure_client db client_id now] at hnew
  refine apply_fresh_snapshot_refused hclient hbelow' hnew ?_ hkeys hbody
  rw [ensure_client_snapshots]
  -- a stored row with this id would have this number, which is above the stored ones
  cases hprior : db.snapshots.lookup SnapshotRow.id_key (client_id, snapshot_id) with
  | none => rfl
  | some r =>
    obtain ⟨hr, hid⟩ := Table.lookup_some_mem hprior
    have hle := hbelow.snapshots r hr (congrArg Prod.fst hid)
    have hseq : r.seq = seq := by
      by_contra hne
      rw [hprior] at hreused
      exact hreused (decide_eq_true (.inl hne))
    rw [last_seq_ensure_client] at hnew
    omega

/-- **No statement of a request breaks a constraint.** In every store that can be reached, a
validated request is refused with a `StoreConflict` or a `StoreLimit` or not at all. So the
`IntegrityError` of SQLite, which the handler would answer with a 503, does not occur. -/
theorem no_constraint_broken (env : Env) (db : DB) (h : Reachable env db) (call : Call)
    (hvalid : call.request.Validated) (err : StoreError)
    (hrefused : (call.perform env db).1 = .error err) :
    (∃ message, err = .conflict message) ∨ ∃ message, err = .limit message := by
  have hbelow := reachable_history_below h call.client_id
  obtain ⟨client_id, request, limit, now⟩ := call
  cases hvalid with
  | events hvalid =>
    obtain ⟨hne, hinc, hids⟩ := validate_events_ok hvalid
    exact apply_events_refused hbelow hne hinc hids hrefused
  | snapshot hvalid => exact apply_snapshot_refused hbelow (validate_snapshot_keys hvalid) hrefused

/-- A snapshot of one claim. -/
def sample_snapshot : Call :=
  ⟨"a".toList, .snapshot "4c9184f3-7cf4-4f9d-8f4e-6b9a3b0d5c0f".toList 7
    [⟨"sshd".toList, "4c9184f3-7cf4-4f9d-8f4e-6b9a3b0d5c01".toList, "192.0.2.1".toList, true, none⟩],
    0, 1⟩

theorem sample_snapshot_validated : sample_snapshot.request.Validated :=
  .snapshot (show validate_snapshot (.str "4c9184f3-7cf4-4f9d-8f4e-6b9a3b0d5c0f".toList) (.int 7)
    (.arr [.obj [("jail".toList, .str "sshd".toList),
      ("ban_id".toList, .str "4c9184f3-7cf4-4f9d-8f4e-6b9a3b0d5c01".toList),
      ("ip".toList, .str "192.0.2.1".toList), ("permanent".toList, .bool true),
      ("expires_at".toList, .null)]]) 10 = .ok _ by decide +kernel)

theorem no_constraint_broken_sample :
    (sample_snapshot.perform sample_env sample_full).1 = .error claims_per_client_exceeded ∧
      ((∃ message, claims_per_client_exceeded = .conflict message) ∨
        ∃ message, claims_per_client_exceeded = .limit message) :=
  have hrefused : (sample_snapshot.perform sample_env sample_full).1 =
      .error claims_per_client_exceeded := by decide +kernel
  ⟨hrefused, no_constraint_broken sample_env sample_full sample_full_reachable sample_snapshot
    sample_snapshot_validated _ hrefused⟩

end F2bguard.Store
