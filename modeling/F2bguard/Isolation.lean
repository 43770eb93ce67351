/-
Clients do not see each other.

All clients share the five tables. `restrict db c` is the part of the tables that belongs
to one client, and the calls commute with it: a call of `c` does the same to the part as
to the whole (`perform_restrict`), a call of another client does nothing to the part
(`restrict_perform_other`). The one exception is the limit on all claims together. It
follows that deleting everybody else's calls from a run changes nothing `c` can observe.
-/
import F2bguard.StoreRuns

set_option autoImplicit false

namespace F2bguard.Store

open F2bguard.PyText F2bguard.Claims F2bguard.Tables

/-- The rows of one client. -/
def restrict (db : DB) (c : Text) : DB where
  client_state := db.client_state.only (fun r => r.client_id = c)
  claims := db.claims.only (fun r => r.client_id = c)
  events := db.events.only (fun r => r.client_id = c)
  snapshots := db.snapshots.only (fun r => r.client_id = c)
  enforcement_state := db.enforcement_state

section Own

/-! ## The client's own calls

Each statement of a call commutes with `restrict`: it looks at the rows of its client and at no
others, or it counts, and the only count over all clients is the global limit. `Commutes` is the
notion for a body with exits, and it is put together exit by exit. -/

variable (env : Env) (db : DB) (c : Text) (now : ℚ)

theorem last_seq_restrict : last_seq (restrict db c) c = last_seq db c := by
  unfold last_seq restrict
  rw [Table.lookup_only _ (by simp)]

theorem client_exists_restrict : client_exists (restrict db c) c = client_exists db c := by
  unfold client_exists restrict
  rw [Table.lookup_only _ (by simp)]

theorem ensure_client_restrict :
    ensure_client (restrict db c) c now = restrict (ensure_client db c now) c := by
  have hinsert : (restrict db c).client_state.insert ⟨c, 0, now⟩ =
      (db.client_state.insert ⟨c, 0, now⟩).map (fun t => t.only (fun r => r.client_id = c)) := by
    apply Table.insert_only (by simp)
    intro x hx hxc
    simp [hxc] at hx
  unfold ensure_client
  rw [hinsert]
  cases db.client_state.insert ⟨c, 0, now⟩ <;> rfl

theorem claim_ip_restrict (jail ban_id : Text) :
    claim_ip (restrict db c) c jail ban_id = claim_ip db c jail ban_id := by
  unfold claim_ip restrict
  rw [Table.lookup_only _ (by exact fun _ h => decide_eq_true (congrArg Prod.fst h))]

theorem prior_event_restrict (e : Event) :
    prior_event (restrict db c) c e = prior_event db c e := by
  unfold prior_event restrict
  rw [Table.lookup_only _ (by exact fun _ h => decide_eq_true (congrArg Prod.fst h))]

theorem event_reused_restrict :
    event_reused env (restrict db c) c = event_reused env db c := by
  funext e
  unfold event_reused
  rw [prior_event_restrict]

theorem claim_count_restrict : claim_count (restrict db c) c = claim_count db c := by
  unfold claim_count restrict
  simp [List.filter_filter]

theorem total_claims_restrict_le : total_claims (restrict db c) ≤ total_claims db :=
  List.length_filter_le _ _

theorem set_last_seq_restrict (seq : ℕ) :
    set_last_seq (restrict db c) c seq now = restrict (set_last_seq db c seq now) c := by
  unfold set_last_seq restrict
  simp only [DB.mk.injEq, and_true]
  exact (Table.only_modify _ (set_last_seq_compat c seq now) (by intro r; rfl)).symm

theorem truncate_events_restrict :
    truncate_events env (restrict db c) c = restrict (truncate_events env db c) c := by
  unfold truncate_events restrict
  simp only [DB.mk.injEq, and_true, true_and, Table.rows_only, List.filter_filter, Bool.and_self]
  exact (Table.only_delete _ _ _).symm

theorem truncate_snapshots_restrict :
    truncate_snapshots env (restrict db c) c = restrict (truncate_snapshots env db c) c := by
  unfold truncate_snapshots restrict
  simp only [DB.mk.injEq, and_true, true_and, Table.rows_only, List.filter_filter, Bool.and_self]
  exact (Table.only_delete _ _ _).symm

/-- The columns an upsert of a claim sets are not part of the key. -/
theorem upsert_claim_compat (row x y : ClaimRow) (h : ClaimRow.Compat x y) :
    ClaimRow.Compat
      (if decide (x.key = row.key) then
        { x with
          ip := row.ip, permanent := row.permanent, expires_at := row.expires_at
          updated_at := row.updated_at }
      else x)
      (if decide (y.key = row.key) then
        { y with
          ip := row.ip, permanent := row.permanent, expires_at := row.expires_at
          updated_at := row.updated_at }
      else y) := by
  unfold ClaimRow.Compat at *
  split <;> split <;> exact h

theorem upsert_claim_restrict {row : ClaimRow} (hrow : row.client_id = c) :
    upsert_claim (restrict db c) row = (upsert_claim db row).map (fun db => restrict db c) := by
  have hupsert := Table.upsert_only (t := db.claims) (p := fun r => decide (r.client_id = c))
    (upsert_claim_compat row) (fun _ => rfl)
    (by
      intro x hx
      have hkey : x.key = row.key := by simpa using hx
      exact decide_eq_true ((congrArg Prod.fst hkey).trans hrow))
    (by simpa using hrow)
    (by
      intro x hx hkey
      exact of_decide_eq_false hx ((congrArg Prod.fst hkey).trans hrow))
  unfold upsert_claim
  rw [hrow, client_exists_restrict]
  split
  · simp only [restrict] at hupsert ⊢
    rw [hupsert]
    cases db.claims.upsert _ _ _ <;> rfl
  · rfl

theorem apply_op_restrict (e : Event) :
    apply_op c now (restrict db c) e = (apply_op c now db e).map (fun db => restrict db c) := by
  unfold apply_op
  rw [claim_ip_restrict]
  cases e.op with
  | ban =>
    simp only
    split
    · rfl
    · exact upsert_claim_restrict db c rfl
  | unban =>
    simp only
    split
    · rfl
    · simp only [Except.map, restrict]
      rw [Table.only_delete]

theorem apply_event_restrict (e : Event) :
    apply_event env c now (restrict db c) e =
      (apply_event env c now db e).map (fun db => restrict db c) := by
  unfold apply_event
  rw [apply_op_restrict]
  cases apply_op c now db e with
  | error err => rfl
  | ok db1 =>
    have hinsert := Table.insert_only (t := db1.events) (p := fun r => decide (r.client_id = c))
      (r := event_row env c now e) (by simp [event_row])
      (by
        intro x hx
        have hne : x.client_id ≠ c := by simpa using hx
        exact ⟨fun h => hne (congrArg Prod.fst h), fun h => hne (congrArg Prod.fst h)⟩)
    simp only [Except.map, Except.bind, restrict] at hinsert ⊢
    rw [hinsert]
    cases db1.events.insert _ <;> rfl

/-- Folding a fallible step commutes with a map between states that the step respects. -/
theorem foldlM_map {σ α ε : Type} {f : σ → α → Except ε σ} {g : σ → σ}
    (h : ∀ s a, f (g s) a = (f s a).map g) (as : List α) :
    ∀ s, as.foldlM f (g s) = (as.foldlM f s).map g := by
  induction as with
  | nil => intro s; rfl
  | cons a as ih =>
    intro s
    rw [List.foldlM_cons, List.foldlM_cons, h]
    cases f s a with
    | error e => rfl
    | ok s' => exact ih s'

theorem insert_claim_restrict {row : ClaimRow} (hrow : row.client_id = c) :
    insert_claim (restrict db c) row = (insert_claim db row).map (fun db => restrict db c) := by
  have hinsert := Table.insert_only (t := db.claims) (p := fun r => decide (r.client_id = c))
    (r := row) (by simpa using hrow)
    (by
      intro x hx hkey
      exact of_decide_eq_false hx ((congrArg Prod.fst hkey).trans hrow))
  unfold insert_claim
  rw [hrow, client_exists_restrict]
  split
  · simp only [restrict] at hinsert ⊢
    rw [hinsert]
    cases db.claims.insert row <;> rfl
  · rfl

theorem foldlM_insert_claim_restrict (claims : List Claim) :
    (claims.map (claim_row c now)).foldlM insert_claim (restrict db c) =
      ((claims.map (claim_row c now)).foldlM insert_claim db).map (fun db => restrict db c) := by
  rw [List.foldlM_map, List.foldlM_map]
  exact foldlM_map (f := fun db claim => insert_claim db (claim_row c now claim))
    (fun db claim => insert_claim_restrict db c rfl) claims db

/-- A result that is not the limit on all claims, seen from the part and from the whole. -/
def Commutes {α : Type} (whole part : Except StoreError (α × DB)) : Prop :=
  whole ≠ .error global_limit_exceeded →
    part = whole.map (fun r => (r.1, restrict r.2 c))

theorem apply_fresh_events_restrict (es : List Event) (new_seq limit : ℕ) :
    Commutes c (apply_fresh_events env db c es new_seq limit now)
      (apply_fresh_events env (restrict db c) c es new_seq limit now) := by
  intro hne
  unfold apply_fresh_events at hne ⊢
  rw [foldlM_map (fun db e => apply_event_restrict env db c now e) es db]
  cases hloop : es.foldlM (apply_event env c now) db with
  | error e => rfl
  | ok db1 =>
    rw [hloop] at hne
    simp only [Except.map, Except.bind, check_limits, claim_count_restrict] at hne ⊢
    by_cases hlimit : limit < claim_count db1 c
    · simp only [if_pos hlimit]
    · simp only [if_neg hlimit] at hne ⊢
      by_cases htotal : MAX_TOTAL_CLAIMS < total_claims db1
      · rw [if_pos htotal] at hne
        exact absurd rfl hne
      · have hle := total_claims_restrict_le db1 c
        rw [if_neg htotal, if_neg (by omega), set_last_seq_restrict, truncate_events_restrict]

theorem apply_fresh_snapshot_restrict (snapshot_id : Text) (seq : ℕ) (claims : List Claim) :
    Commutes c (apply_fresh_snapshot env db c snapshot_id seq claims now)
      (apply_fresh_snapshot env (restrict db c) c snapshot_id seq claims now) := by
  intro hne
  unfold apply_fresh_snapshot at hne ⊢
  simp only [claim_ip_restrict]
  split
  · rfl
  rename_i hrebind
  rw [if_neg hrebind] at hne
  -- the client's claims are all that the snapshot replaces
  have hdelete : delete_claims (restrict db c) c = restrict (delete_claims db c) c := by
    simp only [delete_claims, restrict, Table.only_delete]
  rw [hdelete, foldlM_insert_claim_restrict]
  cases hloop : (claims.map (claim_row c now)).foldlM insert_claim (delete_claims db c) with
  | error e => rfl
  | ok db1 =>
    rw [hloop] at hne
    simp only [Except.map, Except.bind] at hne ⊢
    -- the global limit is the one check that sees the others
    by_cases htotal : MAX_TOTAL_CLAIMS < total_claims db1
    · rw [if_pos htotal] at hne
      exact absurd rfl hne
    · have hle := total_claims_restrict_le db1 c
      rw [if_neg htotal, if_neg (by omega)]
      -- no other client's row has a key with this id
      have hinsert := Table.insert_only (t := db1.snapshots)
        (p := fun r => decide (r.client_id = c))
        (r := ⟨c, snapshot_id, seq, payload_hash env (snapshot_payload snapshot_id seq claims),
          now⟩) (by simp)
        (by
          intro x hx
          have hne : x.client_id ≠ c := by simpa using hx
          exact ⟨fun h => hne (congrArg Prod.fst h), fun h => hne (congrArg Prod.fst h)⟩)
      have hsnapshots : (restrict db1 c).snapshots =
          db1.snapshots.only (fun r => decide (r.client_id = c)) := rfl
      rw [hsnapshots, hinsert]
      cases hi : db1.snapshots.insert _ with
      | none => rfl
      | some snapshots =>
        simp only [Option.map_some, constrained]
        rw [← truncate_snapshots_restrict, ← set_last_seq_restrict]
        rfl

theorem snapshot_lookup_restrict (snapshot_id : Text) :
    (restrict db c).snapshots.lookup SnapshotRow.id_key (c, snapshot_id) =
      db.snapshots.lookup SnapshotRow.id_key (c, snapshot_id) := by
  unfold restrict
  rw [Table.lookup_only _ (by exact fun _ h => decide_eq_true (congrArg Prod.fst h))]

theorem apply_events_body_restrict (es : List Event) (first last : Event) (limit : ℕ) :
    Commutes c (apply_events_body env db c es first last limit now)
      (apply_events_body env (restrict db c) c es first last limit now) := by
  intro hne
  unfold apply_events_body at hne ⊢
  simp only [ensure_client_restrict, last_seq_restrict, event_reused_restrict,
    prior_event_restrict] at hne ⊢
  split
  · rfl
  rename_i hreused
  rw [if_neg hreused] at hne
  split
  · split
    · rfl
    · split <;> rfl
  rename_i hnew
  rw [if_neg hnew] at hne
  split
  · rfl
  rename_i hprior
  rw [if_neg hprior] at hne
  exact apply_fresh_events_restrict env _ c now es last.seq limit hne

theorem apply_snapshot_body_restrict (snapshot_id : Text) (seq : ℕ) (claims : List Claim) :
    Commutes c (apply_snapshot_body env db c snapshot_id seq claims now)
      (apply_snapshot_body env (restrict db c) c snapshot_id seq claims now) := by
  intro hne
  unfold apply_snapshot_body at hne ⊢
  simp only [ensure_client_restrict, last_seq_restrict, snapshot_lookup_restrict] at hne ⊢
  split
  · rfl
  rename_i hreused
  rw [if_neg hreused] at hne
  split
  · split <;> rfl
  rename_i hnew
  rw [if_neg hnew] at hne
  exact apply_fresh_snapshot_restrict env _ c now snapshot_id seq claims hne

theorem transaction_restrict {α : Type} {whole part : Except StoreError (α × DB)}
    (h : Commutes c whole part) (hne : (transaction db whole).1 ≠ .error global_limit_exceeded) :
    transaction (restrict db c) part =
      ((transaction db whole).1, restrict (transaction db whole).2 c) := by
  have hpart := h (by
    rintro rfl
    exact hne rfl)
  rw [hpart]
  cases whole <;> rfl

end Own

/-- A call of the client does the same to its part of the tables as to the whole. -/
theorem perform_restrict (env : Env) (db : DB) (call : Call)
    (hne : (call.perform env db).1 ≠ .error global_limit_exceeded) :
    call.perform env (restrict db call.client_id) =
      ((call.perform env db).1, restrict (call.perform env db).2 call.client_id) := by
  unfold Call.perform at hne ⊢
  cases hcall : call.request with
  | events es =>
    simp only [hcall] at hne ⊢
    cases es with
    | nil => rfl
    | cons first rest =>
      rw [apply_events_cons] at hne ⊢
      rw [apply_events_cons]
      split
      · rfl
      · rename_i hinc
        rw [if_neg hinc] at hne
        exact transaction_restrict db _
          (apply_events_body_restrict env db _ call.now _ first _ call.claims_limit) hne
  | snapshot snapshot_id seq claims =>
    simp only [hcall] at hne ⊢
    unfold apply_snapshot at hne ⊢
    split
    · rfl
    · rename_i hlimit
      rw [if_neg hlimit] at hne
      exact transaction_restrict db _
        (apply_snapshot_body_restrict env db _ call.now snapshot_id seq claims) hne

section Others

/-! ## Other clients' calls

A statement for another client leaves every row of this one where it is. That is a fact about each
statement, carried through the two loops by `foldlM_frame`. -/

variable (env : Env) {db db' : DB} {c other : Text} (now : ℚ)

theorem restrict_ensure_client (hc : other ≠ c) :
    restrict (ensure_client db other now) c = restrict db c := by
  unfold ensure_client
  split
  · rename_i t ht
    simp only [restrict, DB.mk.injEq, and_true]
    exact Table.only_insert_of_not (by simpa using hc) ht
  · rfl

theorem restrict_upsert_claim {row : ClaimRow} (hc : row.client_id ≠ c)
    (h : upsert_claim db row = .ok db') : restrict db' c = restrict db c := by
  unfold upsert_claim at h
  split at h
  · obtain ⟨claims, hclaims, rfl⟩ := map_eq_ok.mp h
    simp only [restrict, DB.mk.injEq, true_and, and_true]
    refine Table.only_upsert_of_not (upsert_claim_compat row) (by intro r; rfl) ?_
      (by simpa using hc) (constrained_eq_ok.mp hclaims)
    intro x hx
    have hxc : x.client_id = c := by simpa using hx
    exact decide_eq_false fun hkey => hc ((congrArg Prod.fst hkey).symm.trans hxc)
  · cases h

theorem restrict_apply_op {e : Event} (hc : other ≠ c) (h : apply_op other now db e = .ok db') :
    restrict db' c = restrict db c := by
  unfold apply_op at h
  cases hop : e.op with
  | ban =>
    simp only [hop] at h
    split at h
    · cases h
    · exact restrict_upsert_claim hc h
  | unban =>
    simp only [hop] at h
    split at h
    · cases h
    · cases h
      simp only [restrict, DB.mk.injEq, true_and, and_true]
      apply Table.only_delete_of_disjoint
      intro r hr
      have hrc : r.client_id = c := by simpa using hr
      apply decide_eq_false
      rintro ⟨hkey, -⟩
      exact hc ((congrArg Prod.fst hkey).symm.trans hrc)

theorem restrict_apply_event {e : Event} (hc : other ≠ c)
    (h : apply_event env other now db e = .ok db') : restrict db' c = restrict db c := by
  obtain ⟨db1, hop, h⟩ := bind_eq_ok.mp h
  obtain ⟨events, hevents, rfl⟩ := map_eq_ok.mp h
  rw [← restrict_apply_op now hc hop]
  simp only [restrict, DB.mk.injEq, true_and, and_true]
  exact Table.only_insert_of_not (decide_eq_false hc) (constrained_eq_ok.mp hevents)

/-- A step that leaves a view of the state alone, folded. -/
theorem foldlM_frame {σ α ε β : Type} {f : σ → α → Except ε σ} {v : σ → β}
    (h : ∀ s a s', f s a = .ok s' → v s' = v s) (as : List α) :
    ∀ {s s'}, as.foldlM f s = .ok s' → v s' = v s := by
  induction as with
  | nil =>
    intro s s' hs
    cases hs
    rfl
  | cons a as ih =>
    intro s s' hs
    rw [List.foldlM_cons] at hs
    obtain ⟨s1, h1, hs⟩ := bind_eq_ok.mp hs
    rw [ih hs, h s a s1 h1]

theorem restrict_insert_claim {row : ClaimRow} (hc : row.client_id ≠ c)
    (h : insert_claim db row = .ok db') : restrict db' c = restrict db c := by
  unfold insert_claim at h
  split at h
  · obtain ⟨claims, hclaims, rfl⟩ := map_eq_ok.mp h
    simp only [restrict, DB.mk.injEq, true_and, and_true]
    exact Table.only_insert_of_not (by simpa using hc) (constrained_eq_ok.mp hclaims)
  · cases h

theorem restrict_set_last_seq (seq : ℕ) (hc : other ≠ c) :
    restrict (set_last_seq db other seq now) c = restrict db c := by
  unfold set_last_seq
  simp only [restrict, DB.mk.injEq, and_true]
  refine Table.only_modify_of_disjoint _ (set_last_seq_compat other seq now) (by intro r; rfl) ?_
  intro r hr
  have hrc : r.client_id = c := by simpa using hr
  exact decide_eq_false fun h => hc (h.symm.trans hrc)

/-- What truncation deletes are rows of the client it truncates. -/
theorem client_id_of_beyond {ρ : Type} {client_id : ρ → Text} {received_at : ρ → ℚ}
    {seq : ρ → ℕ} {cap : ℕ} {rows : List ρ} {r : ρ}
    (h : r ∈ beyond received_at seq cap (rows.filter (fun r => client_id r = other))) :
    client_id r = other := by
  have hmem := (List.mem_insertionSort _).mp (List.mem_of_mem_drop h)
  simpa using (List.mem_filter.mp hmem).2

theorem restrict_truncate_events (hc : other ≠ c) :
    restrict (truncate_events env db other) c = restrict db c := by
  unfold truncate_events
  simp only [restrict, DB.mk.injEq, true_and, and_true]
  apply Table.only_delete_of_disjoint
  intro r hr
  have hrc : r.client_id = c := by simpa using hr
  exact decide_eq_false fun h => hc ((client_id_of_beyond h).symm.trans hrc)

theorem restrict_truncate_snapshots (hc : other ≠ c) :
    restrict (truncate_snapshots env db other) c = restrict db c := by
  unfold truncate_snapshots
  simp only [restrict, DB.mk.injEq, true_and, and_true]
  apply Table.only_delete_of_disjoint
  intro r hr
  have hrc : r.client_id = c := by simpa using hr
  exact decide_eq_false fun h => hc ((client_id_of_beyond h).symm.trans hrc)

theorem restrict_apply_fresh_events {es : List Event} {new_seq limit : ℕ} {result : ApplyResult}
    (hc : other ≠ c) (h : apply_fresh_events env db other es new_seq limit now = .ok (result, db')) :
    restrict db' c = restrict db c := by
  obtain ⟨db1, hloop, -, -, rfl⟩ := apply_fresh_events_eq_ok h
  rw [restrict_truncate_events env hc, restrict_set_last_seq now new_seq hc]
  exact foldlM_frame (v := fun db => restrict db c)
    (fun s e s' hs => restrict_apply_event env now hc hs) es hloop

theorem restrict_apply_fresh_snapshot {snapshot_id : Text} {seq : ℕ} {claims : List Claim}
    {result : ApplyResult} (hc : other ≠ c)
    (h : apply_fresh_snapshot env db other snapshot_id seq claims now = .ok (result, db')) :
    restrict db' c = restrict db c := by
  obtain ⟨db1, snapshots, hloop, -, hinsert, -, rfl⟩ := apply_fresh_snapshot_eq_ok h
  rw [restrict_truncate_snapshots env hc, restrict_set_last_seq now seq hc]
  have hsnapshots : restrict { db1 with snapshots } c = restrict db1 c := by
    simp only [restrict, DB.mk.injEq, true_and, and_true]
    exact Table.only_insert_of_not (by simpa using hc) hinsert
  have hdelete : restrict (delete_claims db other) c = restrict db c := by
    simp only [delete_claims, restrict, DB.mk.injEq, true_and, and_true]
    apply Table.only_delete_of_disjoint
    intro r hr
    have hrc : r.client_id = c := by simpa using hr
    exact decide_eq_false fun h => hc (h.symm.trans hrc)
  rw [hsnapshots, ← hdelete]
  rw [List.foldlM_map] at hloop
  exact foldlM_frame (v := fun db => restrict db c)
    (fun s claim s' hs => restrict_insert_claim hc hs) claims hloop

end Others

theorem restrict_transaction {α : Type} {db : DB} {c : Text} {body : Except StoreError (α × DB)}
    (h : ∀ x db', body = .ok (x, db') → restrict db' c = restrict db c) :
    restrict (transaction db body).2 c = restrict db c := by
  rcases transaction_cases db body with ⟨e, -, htx⟩ | ⟨x, db', hbody, htx⟩
  · rw [htx]
  · rw [htx]
    exact h x db' hbody

/-- A call of another client does nothing to a client's part of the tables. -/
theorem restrict_perform_other (env : Env) (db : DB) (call : Call) {c : Text}
    (hc : call.client_id ≠ c) : restrict (call.perform env db).2 c = restrict db c := by
  unfold Call.perform
  cases hcall : call.request with
  | events es =>
    cases es with
    | nil => rfl
    | cons first rest =>
      simp only
      rw [apply_events_cons]
      split
      · rfl
      apply restrict_transaction
      intro result db' hbody
      -- neither the row of `client_state` nor the batch is in the client's part
      have hensure : restrict (ensure_client db call.client_id call.now) c = restrict db c :=
        restrict_ensure_client call.now hc
      rcases apply_events_body_eq_ok hbody with ⟨-, -, rfl⟩ | ⟨-, hbody⟩
      · exact hensure
      · rw [← hensure]
        exact restrict_apply_fresh_events env call.now hc hbody
  | snapshot snapshot_id seq claims =>
    simp only
    unfold apply_snapshot
    split
    · rfl
    apply restrict_transaction
    intro result db' hbody
    have hensure : restrict (ensure_client db call.client_id call.now) c = restrict db c :=
      restrict_ensure_client call.now hc
    rcases apply_snapshot_body_eq_ok hbody with ⟨-, -, rfl⟩ | ⟨-, hbody⟩
    · exact hensure
    · rw [← hensure]
      exact restrict_apply_fresh_snapshot env call.now hc hbody

/-! ## Two runs

The same actions are carried out twice, once as they are and once without the calls of the other
clients. The induction keeps the second store at the part of the first that belongs to the client,
which is what makes the two sequences of observations equal and not only similar. -/

/-- What a client can observe of the store. Its rows come in the order of the table, which is part
of what is compared. -/
structure ClientView where
  claims : List ClaimRow
  last_seq : ℕ
  events : List EventRow
  snapshots : List SnapshotRow

/-- What `client_view` shows of the tables: the rows with the id of the client, and its number. -/
def client_view (db : DB) (c : Text) : ClientView where
  claims := db.claims.rows.filter (fun r => r.client_id = c)
  last_seq := last_seq db c
  events := db.events.rows.filter (fun r => r.client_id = c)
  snapshots := db.snapshots.rows.filter (fun r => r.client_id = c)

theorem client_view_restrict (db : DB) (c : Text) :
    client_view (restrict db c) c = client_view db c := by
  simp only [client_view, last_seq_restrict]
  simp [restrict, List.filter_filter]

/-- A call of somebody else. Prunings and enforcement records are nobody's. -/
def is_call_of_other (c : Text) : Action → Bool
  | .call call => call.client_id ≠ c
  | _ => false

/-- The run without the calls of the other clients. -/
def without_others (c : Text) (actions : List Action) : List Action :=
  actions.filter (fun a => !is_call_of_other c a)

/-- No call of the run fails with the limit on all claims. -/
def within_global_limit (env : Env) : DB → List Action → Prop
  | _, [] => True
  | db, a :: actions =>
      (∀ call, a = .call call → (call.perform env db).1 ≠ .error global_limit_exceeded) ∧
        within_global_limit env (a.perform env db) actions

/-- What a client sees along a run: the result of each of its calls, and after every
action that is not another client's call its claims, number and histories. -/
def observations (env : Env) (c : Text) :
    DB → List Action → List (Option (Except StoreError ApplyResult) × ClientView)
  | _, [] => []
  | db, a :: actions =>
      let rest := observations env c (a.perform env db) actions
      match a with
      | .call call =>
          if call.client_id = c then
            (some (call.perform env db).1, client_view (a.perform env db) c) :: rest
          else rest
      | _ => (none, client_view (a.perform env db) c) :: rest

/-- Prunings and enforcement records act on the part as on the whole. -/
theorem restrict_perform_housekeeping (env : Env) (db : DB) (c : Text) (a : Action)
    (ha : ∀ call, a ≠ .call call) :
    a.perform env (restrict db c) = restrict (a.perform env db) c := by
  cases a with
  | call call => exact absurd rfl (ha call)
  | prune now =>
    simp only [Action.perform, prune_history, restrict, Table.only_delete]
  | attempt digest now => rfl
  | success digest applied ipv4 ipv6 now => rfl
  | failure digest error now => rfl

theorem observations_cons_of_not_call (env : Env) (c : Text) (db : DB) {a : Action}
    (ha : ∀ call, a ≠ .call call) (actions : List Action) :
    observations env c db (a :: actions) =
      (none, client_view (a.perform env db) c) :: observations env c (a.perform env db) actions := by
  cases a with
  | call call => exact absurd rfl (ha call)
  | prune now => rfl
  | attempt digest now => rfl
  | success digest applied ipv4 ipv6 now => rfl
  | failure digest error now => rfl

theorem is_call_of_other_eq_false {c : Text} {a : Action} (ha : ∀ call, a ≠ .call call) :
    is_call_of_other c a = false := by
  cases a with
  | call call => exact absurd rfl (ha call)
  | prune now => rfl
  | attempt digest now => rfl
  | success digest applied ipv4 ipv6 now => rfl
  | failure digest error now => rfl

/-- A run of the whole store and the run of the client's part without the other clients'
calls show the client the same. Along the induction the second store stays the part of
the first. -/
theorem observations_restrict (env : Env) (c : Text) (actions : List Action) :
    ∀ db : DB, within_global_limit env db actions →
      observations env c db actions =
        observations env c (restrict db c) (without_others c actions) := by
  induction actions with
  | nil => intro db _; rfl
  | cons a actions ih =>
    intro db hlimit
    obtain ⟨hne, hrest⟩ := hlimit
    have ih := ih _ hrest
    by_cases ha : ∀ call, a ≠ .call call
    · have hkeep : without_others c (a :: actions) = a :: without_others c actions := by
        simp [without_others, is_call_of_other_eq_false ha]
      rw [hkeep, observations_cons_of_not_call env c _ ha, observations_cons_of_not_call env c _ ha,
        restrict_perform_housekeeping env db c a ha, client_view_restrict, ih]
    · push Not at ha
      obtain ⟨call, rfl⟩ := ha
      simp only [Action.perform] at ih
      by_cases hc : call.client_id = c
      · subst hc
        have hperform := perform_restrict env db call (hne call rfl)
        have hkeep : without_others call.client_id (.call call :: actions) =
            .call call :: without_others call.client_id actions := by
          simp [without_others, is_call_of_other]
        rw [hkeep]
        simp only [observations, if_pos, Action.perform, hperform, client_view_restrict]
        rw [ih]
      · have hdrop : without_others c (.call call :: actions) = without_others c actions := by
          simp [without_others, is_call_of_other, hc]
        rw [hdrop]
        simp only [observations, if_neg hc, Action.perform]
        rw [ih, restrict_perform_other env db call hc]

/-- **Clients do not see each other.** In a run in which no call fails with the limit on all
claims, every call of a client returns or raises the same, and leaves it the same claims,
`last_seq` and histories, as when all calls of the other clients are deleted; and no call of
another client, failing or not, changes any of them. The limit on all claims is the one place
where clients meet, which is why it has to be excluded. -/
theorem clients_are_isolated (env : Env) (c : Text) (actions : List Action)
    (h : within_global_limit env DB.initial actions) :
    observations env c DB.initial actions =
        observations env c DB.initial (without_others c actions) ∧
      ∀ (db : DB) (call : Call), call.client_id ≠ c →
        client_view (call.perform env db).2 c = client_view db c := by
  refine ⟨observations_restrict env c actions DB.initial h, fun db call hc => ?_⟩
  rw [← client_view_restrict, restrict_perform_other env db call hc, client_view_restrict]

/-- A ban of one address, as two clients may send it with the same ids. -/
def sample_ban (client_id : Text) : Call :=
  ⟨client_id, .events [⟨"e1".toList, 1, .ban, "sshd".toList, "b1".toList, "192.0.2.1".toList,
    some true, none⟩], 10, 0⟩

/-- Two clients with identical ids and a pruning in between. -/
theorem clients_are_isolated_sample :
    let actions := [.call (sample_ban "a".toList), .prune 5, .call (sample_ban "b".toList)]
    observations sample_env "b".toList DB.initial actions =
        observations sample_env "b".toList DB.initial (without_others "b".toList actions) ∧
      ∀ (db : DB) (call : Call), call.client_id ≠ "b".toList →
        client_view (call.perform sample_env db).2 "b".toList = client_view db "b".toList := by
  refine clients_are_isolated sample_env "b".toList _ ⟨?_, ?_, ?_, trivial⟩
  · rintro call ⟨⟩
    decide
  · rintro call ⟨⟩
  · rintro call ⟨⟩
    decide +kernel

end F2bguard.Store
