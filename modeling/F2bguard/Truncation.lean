/-
Which rows truncation keeps.

`apply_events` and `apply_snapshot` cut the history of their client to its cap in the transaction
that adds to it, and order the rows by the time they were received before their number. With a
clock that was set back the new rows can be the oldest ones: they are deleted in the transaction
that wrote them, and the client that repeats its request is told that it is stale.

A repeated request is a duplicate exactly when there was room for the new rows and for all rows
with a later time (`repeats_iff`). What is kept are the rows of the highest numbers exactly when
none of them was received before one of the others (`keeps_recent_iff`).
-/
import F2bguard.Constraints
import F2bguard.Ranking

set_option autoImplicit false

namespace F2bguard.Store

open F2bguard.PyText F2bguard.PyJson F2bguard.Claims F2bguard.Tables F2bguard.Lifecycle
open F2bguard.Ranking F2bguard.Uuid

/-! ## The two orders

Truncation sorts by the time and then by the number. A reader would expect the numbers to decide,
and the two orders are the same as long as the clock does not go back. -/

/-- `ORDER BY seq DESC` -/
def highest_first {ρ : Type} (seq : ρ → ℕ) (a b : ρ) : Prop := seq b ≤ seq a

section Orders

variable {ρ : Type} (received_at : ρ → ℚ) (seq : ρ → ℕ)

instance : DecidableRel (highest_first seq) := fun a b => inferInstanceAs (Decidable (seq b ≤ seq a))

instance : Std.Total (highest_first seq) := ⟨fun a b => Nat.le_total (seq b) (seq a)⟩

instance : IsTrans ρ (highest_first seq) := ⟨fun _ _ _ hab hbc => hbc.trans hab⟩

instance : Std.Total (newest_first received_at seq) where
  total a b := by
    rcases lt_trichotomy (received_at a) (received_at b) with hlt | heq | hlt
    · exact .inr (.inl hlt)
    · rcases Nat.le_total (seq a) (seq b) with hle | hle
      · exact .inr (.inr ⟨heq, hle⟩)
      · exact .inl (.inr ⟨heq.symm, hle⟩)
    · exact .inl (.inl hlt)

instance : IsTrans ρ (newest_first received_at seq) where
  trans a b c hab hbc := by
    rcases hab with hab | ⟨hab, hseq⟩
    · rcases hbc with hbc | ⟨hbc, -⟩
      · exact .inl (hbc.trans hab)
      · exact .inl (hbc ▸ hab)
    · rcases hbc with hbc | ⟨hbc, hseq'⟩
      · exact .inl (hab ▸ hbc)
      · exact .inr ⟨hbc.trans hab, hseq'.trans hseq⟩

/-- The `cap` rows of the highest numbers. -/
def recent (cap : ℕ) (rows : List ρ) : List ρ := first (highest_first seq) cap rows

/-- None of the `cap` rows of the highest numbers was received before one of the others. -/
def InOrder (cap : ℕ) (rows : List ρ) : Prop :=
  ∀ x ∈ recent seq cap rows, ∀ y ∈ rows, y ∉ recent seq cap rows → received_at y ≤ received_at x

variable {received_at seq} {cap : ℕ} {rows : List ρ}

theorem newest_first_antisymm (hseq : ∀ x ∈ rows, ∀ y ∈ rows, seq x = seq y → x = y) :
    AntisymmOn (newest_first received_at seq) rows := by
  intro x y hx hy hxy hyx
  refine hseq x hx y hy ?_
  rcases hxy with hxy | ⟨heq, hle⟩
  · rcases hyx with hyx | ⟨heq, -⟩
    · exact absurd hyx (not_lt.mpr hxy.le)
    · exact absurd heq.symm (ne_of_lt hxy)
  · rcases hyx with hyx | ⟨-, hle'⟩
    · exact absurd heq.symm (ne_of_lt hyx)
    · exact Nat.le_antisymm hle' hle

/-- The order of truncation keeps the highest numbers exactly when the clock agrees. -/
theorem kept_recent_iff (hrows : rows.Nodup) (hseq : ∀ x ∈ rows, ∀ y ∈ rows, seq x = seq y → x = y) :
    (∀ x, x ∈ first (newest_first received_at seq) cap rows ↔ x ∈ recent seq cap rows) ↔
      InOrder received_at seq cap rows := by
  unfold recent InOrder recent
  rw [first_same_iff hrows (newest_first_antisymm hseq)]
  have hlower : ∀ x ∈ first (highest_first seq) cap rows, ∀ y ∈ rows,
      y ∉ first (highest_first seq) cap rows → seq y ≤ seq x := by
    intro x hx y hy hnot
    exact rel_of_first_rest (r := highest_first seq) hx
      ((mem_first_or_rest.mpr hy).resolve_left hnot)
  constructor
  · intro hbefore x hx y hy hnot
    rcases hbefore x hx y hy hnot with hlt | ⟨heq, -⟩
    · exact hlt.le
    · exact heq.le
  · intro hclock x hx y hy hnot
    rcases lt_or_eq_of_le (hclock x hx y hy hnot) with hlt | heq
    · exact .inl hlt
    · exact .inr ⟨heq, hlower x hx y hy hnot⟩

/-- New rows of one time, numbered above the others, are kept exactly when there is room for
them and for the rows of a later time. -/
theorem kept_new_iff {now : ℚ} {old new : List ρ} (hrows : (old ++ new).Nodup)
    (hseq : ∀ x ∈ old ++ new, ∀ y ∈ old ++ new, seq x = seq y → x = y)
    (hnow : ∀ x ∈ new, received_at x = now) (habove : ∀ x ∈ old, ∀ y ∈ new, seq x < seq y)
    (hnew : new ≠ []) :
    (∀ x ∈ new, x ∈ first (newest_first received_at seq) cap (old ++ new)) ↔
      (old.filter (fun x => now < received_at x)).length + new.length ≤ cap := by
  have hperm : (old.filter (fun x => now < received_at x) ++
      (new ++ old.filter (fun x => !decide (now < received_at x)))).Perm (old ++ new) := by
    have hsplit := List.filter_append_perm (fun x => decide (now < received_at x)) old
    have hswap : (new ++ old.filter (fun x => !decide (now < received_at x))).Perm
        (old.filter (fun x => !decide (now < received_at x)) ++ new) := List.perm_append_comm
    refine (hswap.append_left _).trans ?_
    rw [← List.append_assoc]
    exact List.Perm.append_right new hsplit
  refine middle_first_iff hrows (newest_first_antisymm hseq) hperm ?_ ?_ ?_ hnew
  · intro x hx y hy
    have hlater : now < received_at x := by simpa using (List.mem_filter.mp hx).2
    exact .inl ((hnow y hy).symm ▸ hlater)
  · intro x hx y hy
    have hlater : now < received_at x := by simpa using (List.mem_filter.mp hx).2
    have hearlier : received_at y ≤ now := by simpa using (List.mem_filter.mp hy).2
    exact .inl (lt_of_le_of_lt hearlier hlater)
  · intro x hx y hy
    have hearlier : received_at y ≤ now := by simpa using (List.mem_filter.mp hy).2
    rcases lt_or_eq_of_le hearlier with hlt | heq
    · exact .inl ((hnow x hx).symm ▸ hlt)
    · exact .inr ⟨heq.trans (hnow x hx).symm, (habove y (List.mem_of_mem_filter hy) x hx).le⟩

/-- What is left of the rows that are truncated. -/
theorem mem_truncated [DecidableEq ρ] {Compat : ρ → ρ → Prop} {t : Table ρ Compat} {p : ρ → Bool}
    (ht : t.rows.Nodup) {x : ρ} :
    x ∈ (t.delete (fun r => r ∈ beyond received_at seq cap (t.rows.filter p))).rows.filter p ↔
      x ∈ first (newest_first received_at seq) cap (t.rows.filter p) := by
  have hrows : (t.rows.filter p).Nodup := ht.filter _
  rw [List.mem_filter, Table.mem_delete, decide_eq_false_iff_not]
  constructor
  · rintro ⟨⟨hx, hkept⟩, hp⟩
    exact (not_mem_rest_iff hrows (List.mem_filter.mpr ⟨hx, hp⟩)).mp hkept
  · intro hx
    have hmem := mem_of_first hx
    obtain ⟨hx', hp⟩ := List.mem_filter.mp hmem
    exact ⟨⟨hx', (not_mem_rest_iff hrows hmem).mpr hx⟩, hp⟩

end Orders

/-! ## What a fresh call leaves

The rows of the client after the call are those it had and the new ones, cut to the cap in the
order of truncation. -/

def client_events (db : DB) (client_id : Text) : List EventRow :=
  db.events.rows.filter (fun r => r.client_id = client_id)

def client_snapshots (db : DB) (client_id : Text) : List SnapshotRow :=
  db.snapshots.rows.filter (fun r => r.client_id = client_id)

theorem Table.rows_nodup {ρ : Type} {Compat : ρ → ρ → Prop} (t : Table ρ Compat)
    (hcompat : ∀ x, ¬ Compat x x) : t.rows.Nodup := by
  refine t.distinct.imp ?_
  rintro x _ hxy rfl
  exact hcompat x hxy

/-- A history of rows `old` and `new` of a client, and what is left of it. -/
structure Truncated {ρ : Type} (received_at : ρ → ℚ) (seq : ρ → ℕ) (cap : ℕ) (old new kept : List ρ) :
    Prop where
  mem : ∀ x, x ∈ kept ↔ x ∈ first (newest_first received_at seq) cap (old ++ new)
  nodup : (old ++ new).Nodup
  inj : ∀ x ∈ old ++ new, ∀ y ∈ old ++ new, seq x = seq y → x = y

theorem truncated_of_delete {ρ : Type} [DecidableEq ρ] {Compat : ρ → ρ → Prop}
    {client : ρ → Text} {received_at : ρ → ℚ} {seq : ρ → ℕ} {cap : ℕ} {c : Text} {old new : List ρ}
    {t : Table ρ Compat} (hcompat : ∀ x, ¬ Compat x x)
    (hkey : Table.Unique Compat (fun r => (client r, seq r)))
    (hrows : t.rows.filter (fun r => client r = c) = old ++ new) :
    Truncated received_at seq cap old new
      ((t.delete (fun r => r ∈ beyond received_at seq cap
        (t.rows.filter (fun r => client r = c)))).rows.filter (fun r => client r = c)) := by
  have ht := Table.rows_nodup t hcompat
  refine ⟨fun x => ?_, ?_, fun x hx y hy heq => ?_⟩
  · rw [mem_truncated ht, hrows]
  · rw [← hrows]
    exact ht.filter _
  · rw [← hrows] at hx hy
    obtain ⟨hx, hxc⟩ := List.mem_filter.mp hx
    obtain ⟨hy, hyc⟩ := List.mem_filter.mp hy
    refine Table.eq_of_key hkey hx hy ?_
    rw [of_decide_eq_true hxc, of_decide_eq_true hyc, heq]

section Truncated

variable {ρ : Type} {received_at : ρ → ℚ} {seq : ρ → ℕ} {cap : ℕ} {old new kept : List ρ}

theorem Truncated.recent_iff (h : Truncated received_at seq cap old new kept) :
    (∀ x, x ∈ kept ↔ x ∈ recent seq cap (old ++ new)) ↔ InOrder received_at seq cap (old ++ new) := by
  simp only [h.mem]
  exact kept_recent_iff h.nodup h.inj

theorem Truncated.new_iff (h : Truncated received_at seq cap old new kept) {now : ℚ}
    (hnow : ∀ x ∈ new, received_at x = now) (habove : ∀ x ∈ old, ∀ y ∈ new, seq x < seq y)
    (hnew : new ≠ []) :
    (∀ x ∈ new, x ∈ kept) ↔ (old.filter (fun x => now < received_at x)).length + new.length ≤ cap := by
  simp only [h.mem]
  exact kept_new_iff h.nodup h.inj hnow habove hnew

end Truncated

theorem event_compat_self (x : EventRow) : ¬ EventRow.Compat x x := fun h => h.1 rfl

theorem snapshot_compat_self (x : SnapshotRow) : ¬ SnapshotRow.Compat x x := fun h => h.1 rfl

section Calls

variable {env : Env} {db db' : DB} {call : Call} {result : ApplyResult}

/-- A fresh batch adds its rows, and the excess goes. -/
theorem fresh_events_rows {es : List Event} (hcall : call.request = .events es)
    (hp : call.perform env db = (.ok result, db')) (hfresh : Fresh env db call db') :
    ∃ t : Table EventRow EventRow.Compat, t.rows = db.events.rows ++ call.event_rows env ∧
      db'.events = t.delete (fun r => r ∈ beyond EventRow.received_at EventRow.seq
        env.max_history_events (t.rows.filter (fun r => r.client_id = call.client_id))) := by
  have hnewer := hfresh.newer
  rw [hcall] at hnewer
  unfold Call.perform at hp
  rw [hcall] at hp
  dsimp only at hp
  cases es with
  | nil => cases hp
  | cons first rest =>
    rw [apply_events_cons] at hp
    split at hp
    · cases hp
    rcases apply_events_body_eq_ok (transaction_eq_ok.mp hp) with ⟨hold, -, -⟩ | ⟨-, hbody⟩
    · -- an old batch ends below the stored number
      have hlast := hnewer _ (List.mem_map.mpr ⟨_, List.getLast_mem (List.cons_ne_nil first rest), rfl⟩)
      exact absurd hold (not_le.mpr hlast)
    obtain ⟨db2, hloop, -, -, rfl⟩ := apply_fresh_events_eq_ok hbody
    have happlied := foldlM_apply_event hloop
    refine ⟨db2.events, ?_, rfl⟩
    rw [happlied.events, ensure_client_events, Call.event_rows, hcall]

/-- A fresh snapshot adds its row, and the excess goes. -/
theorem fresh_snapshot_rows {snapshot_id : Text} {seq : ℕ} {claims : List Claim}
    (hcall : call.request = .snapshot snapshot_id seq claims)
    (hp : call.perform env db = (.ok result, db')) (hfresh : Fresh env db call db') :
    ∃ t : Table SnapshotRow SnapshotRow.Compat,
      t.rows = db.snapshots.rows ++ call.snapshot_rows env ∧
      db'.snapshots = t.delete (fun r => r ∈ beyond SnapshotRow.received_at SnapshotRow.seq
        env.max_history_snapshots (t.rows.filter (fun r => r.client_id = call.client_id))) := by
  have hnewer := hfresh.newer
  rw [hcall] at hnewer
  unfold Call.perform at hp
  rw [hcall] at hp
  dsimp only at hp
  unfold apply_snapshot at hp
  split at hp
  · cases hp
  -- an old snapshot would end below the stored number
  rcases apply_snapshot_body_eq_ok (transaction_eq_ok.mp hp) with ⟨hold, -, -⟩ | ⟨-, hbody⟩
  · exact absurd hold (not_le.mpr (hnewer seq List.mem_cons_self))
  obtain ⟨db2, snapshots, hloop, -, hinsert, -, rfl⟩ := apply_fresh_snapshot_eq_ok hbody
  obtain ⟨t, rfl, -⟩ := foldlM_insert_claim hloop
  refine ⟨snapshots, ?_, rfl⟩
  rw [Table.insert_eq_some.mp hinsert, Call.snapshot_rows, hcall]
  dsimp only
  rw [delete_claims, ensure_client_snapshots]

/-- The rows of the client that have a later time than the call. -/
def Call.later (db : DB) (call : Call) : ℕ :=
  match call.request with
  | .events _ => ((client_events db call.client_id).filter (fun r => call.now < r.received_at)).length
  | .snapshot _ _ _ =>
      ((client_snapshots db call.client_id).filter (fun r => call.now < r.received_at)).length

/-- The cap of the history the call adds to. -/
def Call.cap (env : Env) (call : Call) : ℕ :=
  match call.request with
  | .events _ => env.max_history_events
  | .snapshot _ _ _ => env.max_history_snapshots

/-- There is room for the new rows and for those of a later time. -/
def Call.HasRoom (env : Env) (db : DB) (call : Call) : Prop :=
  call.later db + call.request.seqs.length ≤ call.cap env

/-- With the new rows, none of the `cap` rows of the highest numbers was received before one of
the others. -/
def Call.ClockAgrees (env : Env) (db : DB) (call : Call) : Prop :=
  match call.request with
  | .events _ => InOrder EventRow.received_at EventRow.seq (call.cap env)
      (client_events db call.client_id ++ call.event_rows env)
  | .snapshot _ _ _ => InOrder SnapshotRow.received_at SnapshotRow.seq (call.cap env)
      (client_snapshots db call.client_id ++ call.snapshot_rows env)

/-- The history is cut to the `cap` rows of the highest numbers. -/
def Call.KeepsRecent (env : Env) (db : DB) (call : Call) (db' : DB) : Prop :=
  match call.request with
  | .events _ => ∀ r, r ∈ client_events db' call.client_id ↔
      r ∈ recent EventRow.seq (call.cap env)
        (client_events db call.client_id ++ call.event_rows env)
  | .snapshot _ _ _ => ∀ r, r ∈ client_snapshots db' call.client_id ↔
      r ∈ recent SnapshotRow.seq (call.cap env)
        (client_snapshots db call.client_id ++ call.snapshot_rows env)

/-- The same call at another time is answered as a duplicate and changes nothing. -/
def Call.Repeats (env : Env) (call : Call) (result : ApplyResult) (db' : DB) : Prop :=
  ∀ now, { call with now }.perform env db' = (.ok ⟨true, true, false, result.last_seq⟩, db')

theorem truncated_events {es : List Event} (hcall : call.request = .events es)
    (hp : call.perform env db = (.ok result, db')) (hfresh : Fresh env db call db') :
    Truncated EventRow.received_at EventRow.seq env.max_history_events
      (client_events db call.client_id) (call.event_rows env) (client_events db' call.client_id) := by
  obtain ⟨t, hrows, hevents⟩ := fresh_events_rows hcall hp hfresh
  unfold client_events
  rw [hevents]
  refine truncated_of_delete event_compat_self events_seq_unique ?_
  rw [hrows, List.filter_append]
  congr 1
  rw [List.filter_eq_self]
  exact fun r hr => decide_eq_true (mem_event_rows hr).1

theorem truncated_snapshots {snapshot_id : Text} {seq : ℕ} {claims : List Claim}
    (hcall : call.request = .snapshot snapshot_id seq claims)
    (hp : call.perform env db = (.ok result, db')) (hfresh : Fresh env db call db') :
    Truncated SnapshotRow.received_at SnapshotRow.seq env.max_history_snapshots
      (client_snapshots db call.client_id) (call.snapshot_rows env)
      (client_snapshots db' call.client_id) := by
  obtain ⟨t, hrows, hsnapshots⟩ := fresh_snapshot_rows hcall hp hfresh
  unfold client_snapshots
  rw [hsnapshots]
  refine truncated_of_delete snapshot_compat_self snapshots_seq_unique ?_
  rw [hrows, List.filter_append]
  congr 1
  rw [List.filter_eq_self]
  exact fun r hr => decide_eq_true (mem_snapshot_rows hr).1

theorem keeps_recent_iff (hp : call.perform env db = (.ok result, db'))
    (hfresh : Fresh env db call db') : call.KeepsRecent env db db' ↔ call.ClockAgrees env db := by
  unfold Call.KeepsRecent Call.ClockAgrees Call.cap
  cases hcall : call.request with
  | events es =>
    exact (truncated_events hcall hp hfresh).recent_iff
  | snapshot snapshot_id seq claims =>
    exact (truncated_snapshots hcall hp hfresh).recent_iff

/-! ## The same call again

A repetition is recognised by the rows it finds. With all of them it is a duplicate, without one
of them it is stale, since its numbers are not above `last_seq`. -/

theorem ensure_client_eq {client_id : Text} (now : ℚ) (h : client_exists db client_id) :
    ensure_client db client_id now = db := by
  obtain ⟨r, hr⟩ := Option.isSome_iff_exists.mp h
  obtain ⟨hmem, hclient⟩ := (Table.lookup_eq_some client_state_unique).mp hr
  have hnone : db.client_state.insert ⟨client_id, 0, now⟩ = none := by
    rw [← Option.not_isSome_iff_eq_none, Table.insert_isSome]
    intro hall
    exact hall r hmem hclient
  rw [ensure_client, hnone]

theorem Fresh.client_exists (hfresh : Fresh env db call db') :
    Store.client_exists db' call.client_id := by
  obtain ⟨s, hs⟩ := List.exists_mem_of_ne_nil _ hfresh.nonempty
  have hpos : 0 < Store.last_seq db' call.client_id :=
    (Nat.zero_le _).trans_lt ((hfresh.newer s hs).trans_le (hfresh.seq_le hs))
  unfold Store.client_exists
  by_contra hnone
  rw [Bool.not_eq_true, Option.isSome_eq_false_iff, Option.isNone_iff_eq_none] at hnone
  rw [Store.last_seq, hnone] at hpos
  exact absurd hpos (lt_irrefl 0)

/-- Whatever the clock says, the answer to the same batch depends on which of its rows are still
there. -/
theorem events_again {es : List Event} (hcall : call.request = .events es)
    (hp : call.perform env db = (.ok result, db')) (hfresh : Fresh env db call db') (now : ℚ)
    {kept : Bool}
    (hkept : kept = true ↔ ∀ r ∈ call.event_rows env, r ∈ client_events db' call.client_id) :
    { call with now }.perform env db' = (.ok ⟨true, kept, !kept, call.request.highest⟩, db') := by
  obtain ⟨t, hrows, hevents⟩ := fresh_events_rows hcall hp hfresh
  have hrow : ∀ e ∈ es, event_row env call.client_id call.now e ∈ call.event_rows env := by
    intro e he
    rw [Call.event_rows, hcall]
    exact List.mem_map.mpr ⟨e, he, rfl⟩
  -- the row found under the id of an event is the one the call wrote
  have hprior : ∀ e ∈ es, ∀ r, prior_event db' call.client_id e = some r →
      r = event_row env call.client_id call.now e := by
    intro e he r hr
    obtain ⟨hmem, hid⟩ := prior_event_mem hr
    rw [hevents] at hmem
    refine Table.eq_of_key events_id_unique (Table.mem_delete.mp hmem).1 ?_ hid
    rw [hrows]
    exact List.mem_append_right _ (hrow e he)
  have hsome : ∀ e ∈ es, (prior_event db' call.client_id e).isSome = true ↔
      event_row env call.client_id call.now e ∈ client_events db' call.client_id := by
    intro e he
    rw [Option.isSome_iff_exists]
    constructor
    · rintro ⟨r, hr⟩
      rw [← hprior e he r hr]
      obtain ⟨hmem, hid⟩ := prior_event_mem hr
      exact List.mem_filter.mpr ⟨hmem, decide_eq_true (congrArg Prod.fst hid)⟩
    · intro hmem
      exact ⟨_, (Table.lookup_eq_some events_id_unique).mpr ⟨List.mem_of_mem_filter hmem, rfl⟩⟩
  have hreused : ¬ es.any (event_reused env db' call.client_id) = true := by
    rw [List.any_eq_true]
    rintro ⟨e, he, hany⟩
    rw [event_reused, Option.any_eq_true] at hany
    obtain ⟨r, hr, hne⟩ := hany
    rw [hprior e he r hr] at hne
    simp [event_row] at hne
  have hall : es.all (fun e => (prior_event db' call.client_id e).isSome) = kept := by
    rw [Bool.eq_iff_iff, hkept, List.all_eq_true, Call.event_rows, hcall]
    dsimp only
    rw [List.forall_mem_map]
    exact forall₂_congr hsome
  have hincreasing : seqs_increase es := by
    have h := hfresh.increasing
    rw [hcall] at h
    exact seqs_increase_iff.mpr h
  have hhighest : last_seq db' call.client_id = call.request.highest := by
    rw [hfresh.last_seq, if_pos rfl]
  have hle := hfresh.le_highest
  have hnonempty := hfresh.nonempty
  unfold Call.perform
  dsimp only
  rw [hcall] at hhighest hle hnonempty ⊢
  cases es with
  | nil => exact absurd rfl hnonempty
  | cons first rest =>
    have hne : first :: rest ≠ [] := List.cons_ne_nil _ _
    have hfirst : first.seq ≤ last_seq db' call.client_id := by
      rw [hhighest]
      exact hle first.seq (List.mem_map.mpr ⟨first, List.mem_cons_self, rfl⟩)
    have hlast : ¬ last_seq db' call.client_id < ((first :: rest).getLast hne).seq := by
      rw [hhighest, highest_events _ hne]
      exact lt_irrefl _
    dsimp only
    rw [apply_events_cons, if_neg (not_not.mpr hincreasing)]
    unfold apply_events_body
    dsimp only
    rw [ensure_client_eq now hfresh.client_exists, if_neg hreused, if_pos hfirst, if_neg hlast, hall,
      ← hhighest]
    cases kept with
    | true => rfl
    | false => rfl

theorem snapshot_again {snapshot_id : Text} {seq : ℕ} {claims : List Claim}
    (hcall : call.request = .snapshot snapshot_id seq claims)
    (hp : call.perform env db = (.ok result, db')) (hfresh : Fresh env db call db') (now : ℚ)
    {kept : Bool}
    (hkept : kept = true ↔ ∀ r ∈ call.snapshot_rows env, r ∈ client_snapshots db' call.client_id) :
    { call with now }.perform env db' = (.ok ⟨true, kept, !kept, call.request.highest⟩, db') := by
  obtain ⟨t, hrows, hsnapshots⟩ := fresh_snapshot_rows hcall hp hfresh
  have hrow : call.snapshot_rows env = [⟨call.client_id, snapshot_id, seq,
      payload_hash env (snapshot_payload snapshot_id seq claims), call.now⟩] := by
    rw [Call.snapshot_rows, hcall]
  rw [hrow] at hrows hkept
  rw [List.forall_mem_singleton] at hkept
  -- the id finds the row of this snapshot or none
  have hprior : ∀ r, db'.snapshots.lookup SnapshotRow.id_key (call.client_id, snapshot_id) = some r →
      r = ⟨call.client_id, snapshot_id, seq,
        payload_hash env (snapshot_payload snapshot_id seq claims), call.now⟩ := by
    intro r hr
    obtain ⟨hmem, hid⟩ := Table.lookup_some_mem hr
    rw [hsnapshots] at hmem
    refine Table.eq_of_key snapshots_id_unique (Table.mem_delete.mp hmem).1 ?_ hid
    rw [hrows]
    exact List.mem_append_right _ List.mem_cons_self
  have hsome : (db'.snapshots.lookup SnapshotRow.id_key (call.client_id, snapshot_id)).isSome = kept := by
    rw [Bool.eq_iff_iff, hkept, Option.isSome_iff_exists]
    constructor
    · rintro ⟨r, hr⟩
      rw [← hprior r hr]
      obtain ⟨hmem, hid⟩ := Table.lookup_some_mem hr
      exact List.mem_filter.mpr ⟨hmem, decide_eq_true (congrArg Prod.fst hid)⟩
    · intro hmem
      exact ⟨_, (Table.lookup_eq_some snapshots_id_unique).mpr ⟨List.mem_of_mem_filter hmem, rfl⟩⟩
  -- so it is never used for something else
  have hreused : ¬ (db'.snapshots.lookup SnapshotRow.id_key (call.client_id, snapshot_id)).any
      (fun p => p.seq ≠ seq ∨
        p.payload_hash ≠ payload_hash env (snapshot_payload snapshot_id seq claims)) = true := by
    rw [Option.any_eq_true]
    rintro ⟨r, hr, hne⟩
    rw [hprior r hr] at hne
    simp at hne
  have hhighest : last_seq db' call.client_id = call.request.highest := by
    rw [hfresh.last_seq, if_pos rfl]
  have hseq : call.request.highest = seq := by rw [hcall]; rfl
  have hstored : seq ≤ last_seq db' call.client_id := by rw [hhighest, hseq]
  have hlimit : ¬ call.claims_limit < claims.length := by
    intro hlt
    rw [Call.perform, hcall] at hp
    dsimp only at hp
    rw [apply_snapshot, if_pos hlt] at hp
    cases hp
  unfold Call.perform
  rw [hcall]
  dsimp only
  rw [apply_snapshot, if_neg hlimit]
  unfold apply_snapshot_body
  dsimp only
  rw [ensure_client_eq now hfresh.client_exists, if_neg hreused, if_pos hstored, hsome, hhighest, hcall]
  cases kept with
  | true => rfl
  | false => rfl

/-! ## Room

All new rows have one time and the highest numbers, so the rows in front of them in the order are
just those with a later time. -/

theorem events_kept_iff {es : List Event} (hcall : call.request = .events es)
    (hp : call.perform env db = (.ok result, db')) (hfresh : Fresh env db call db')
    (hbelow : HistoryBelow db call.client_id) :
    (∀ r ∈ call.event_rows env, r ∈ client_events db' call.client_id) ↔ call.HasRoom env db := by
  have hrows : call.event_rows env = es.map (event_row env call.client_id call.now) := by
    rw [Call.event_rows, hcall]
  have hnow : ∀ r ∈ call.event_rows env, r.received_at = call.now := by
    rw [hrows, List.forall_mem_map]
    exact fun e _ => rfl
  have habove : ∀ x ∈ client_events db call.client_id, ∀ y ∈ call.event_rows env, x.seq < y.seq := by
    intro x hx y hy
    obtain ⟨hmem, hclient⟩ := List.mem_filter.mp hx
    exact (hbelow.events x hmem (of_decide_eq_true hclient)).trans_lt
      (hfresh.newer y.seq (mem_event_rows hy).2)
  have hlength : (call.event_rows env).length = call.request.seqs.length := by
    rw [hrows, hcall, Request.seqs, List.length_map, List.length_map]
  have hne : call.event_rows env ≠ [] := by
    rw [← List.length_pos_iff, hlength, List.length_pos_iff]
    exact hfresh.nonempty
  have hiff := (truncated_events hcall hp hfresh).new_iff hnow habove hne
  rw [hlength] at hiff
  simp only [hiff, Call.HasRoom, Call.later, Call.cap, hcall]

theorem snapshot_kept_iff {snapshot_id : Text} {seq : ℕ} {claims : List Claim}
    (hcall : call.request = .snapshot snapshot_id seq claims)
    (hp : call.perform env db = (.ok result, db')) (hfresh : Fresh env db call db')
    (hbelow : HistoryBelow db call.client_id) :
    (∀ r ∈ call.snapshot_rows env, r ∈ client_snapshots db' call.client_id) ↔
      call.HasRoom env db := by
  have hrows : call.snapshot_rows env = [⟨call.client_id, snapshot_id, seq,
      payload_hash env (snapshot_payload snapshot_id seq claims), call.now⟩] := by
    rw [Call.snapshot_rows, hcall]
  have hnow : ∀ r ∈ call.snapshot_rows env, r.received_at = call.now := by
    rw [hrows, List.forall_mem_singleton]
  have habove : ∀ x ∈ client_snapshots db call.client_id, ∀ y ∈ call.snapshot_rows env,
      x.seq < y.seq := by
    intro x hx y hy
    obtain ⟨hmem, hclient⟩ := List.mem_filter.mp hx
    exact (hbelow.snapshots x hmem (of_decide_eq_true hclient)).trans_lt
      (hfresh.newer y.seq (mem_snapshot_rows hy).2)
  have hlength : (call.snapshot_rows env).length = call.request.seqs.length := by
    rw [hrows, hcall]
    rfl
  have hne : call.snapshot_rows env ≠ [] := by
    rw [hrows]
    exact List.cons_ne_nil _ _
  have hiff := (truncated_snapshots hcall hp hfresh).new_iff hnow habove hne
  rw [hlength] at hiff
  simp only [hiff, Call.HasRoom, Call.later, Call.cap, hcall]

theorem repeats_iff (hp : call.perform env db = (.ok result, db')) (hfresh : Fresh env db call db')
    (hresult : result.last_seq = call.request.highest) (hbelow : HistoryBelow db call.client_id) :
    call.Repeats env result db' ↔ call.HasRoom env db := by
  -- the answer to the repeated call is known once it is known whether the new rows are there
  have hdecide : ∀ kept : Bool, (kept = true ↔ call.HasRoom env db) →
      ∀ now, { call with now }.perform env db' =
        (.ok ⟨true, kept, !kept, call.request.highest⟩, db') := by
    intro kept hkept now
    cases hcall : call.request with
    | events es =>
      have hagain := events_again hcall hp hfresh now
        (hkept.trans (events_kept_iff hcall hp hfresh hbelow).symm)
      rwa [hcall] at hagain
    | snapshot snapshot_id seq claims =>
      have hagain := snapshot_again hcall hp hfresh now
        (hkept.trans (snapshot_kept_iff hcall hp hfresh hbelow).symm)
      rwa [hcall] at hagain
  unfold Call.Repeats
  rw [hresult]
  by_cases hroom : call.HasRoom env db
  · exact ⟨fun _ => hroom, fun _ => hdecide true (by simp [hroom])⟩
  · refine ⟨fun hrepeats => ?_, fun h => absurd h hroom⟩
    have hstale := hdecide false (by simp [hroom]) 0
    rw [hrepeats 0] at hstale
    exact absurd hstale (by simp)

end Calls

theorem fresh_of_is_fresh {env : Env} {db db' : DB} {call : Call} {result : ApplyResult}
    (hp : call.perform env db = (.ok result, db')) (hfresh : is_fresh (.ok result) = true) :
    Fresh env db call db' ∧ result.last_seq = call.request.highest := by
  cases perform_outcome hp with
  | known duplicate hne hold hdb => cases duplicate <;> cases hfresh
  | fresh h => exact ⟨h, rfl⟩

/-- **When a repetition is recognised, and what is kept.** After a fresh call, in every store that
can be reached: the same call at once is a duplicate that changes nothing exactly when the cap
leaves room for the new rows and those of a later time, and the history is that of the highest
numbers exactly when the clock agrees with them. -/
theorem repeated_and_recent_iff (env : Env) (db : DB) (hreachable : Reachable env db) (call : Call)
    (result : ApplyResult) (db' : DB) (hp : call.perform env db = (.ok result, db'))
    (hfresh : is_fresh (.ok result) = true) :
    (call.Repeats env result db' ↔ call.HasRoom env db) ∧
      (call.KeepsRecent env db db' ↔ call.ClockAgrees env db) := by
  obtain ⟨h, hresult⟩ := fresh_of_is_fresh hp hfresh
  exact ⟨repeats_iff hp h hresult (reachable_history_below hreachable _), keeps_recent_iff hp h⟩

theorem repeated_and_recent_iff_sample :
    sample_bans.Repeats sample_env ⟨true, false, false, 3⟩
        (sample_bans.perform sample_env DB.initial).2 ∧
      sample_bans.KeepsRecent sample_env DB.initial
        (sample_bans.perform sample_env DB.initial).2 := by
  have hp : sample_bans.perform sample_env DB.initial =
      (.ok ⟨true, false, false, 3⟩, (sample_bans.perform sample_env DB.initial).2) :=
    Prod.ext (by decide +kernel) rfl
  obtain ⟨hrepeats, hrecent⟩ := repeated_and_recent_iff sample_env DB.initial ⟨[], rfl⟩
    sample_bans _ _ hp rfl
  refine ⟨hrepeats.mpr (show 0 + 3 ≤ 100000 by decide), hrecent.mpr ?_⟩
  intro x _ y hy hnot
  exact absurd ((first_of_length_le (show 3 ≤ 100000 by decide)).mpr hy) hnot

/-! ## A full history and a clock that was set back

The history is filled by as many snapshots as the cap allows. The run is made for any number of
them. -/

/-- The snapshot without claims that is numbered `n + 1`. -/
def empty_snapshot (n : ℕ) (now : ℚ) : Call :=
  ⟨"a".toList, .snapshot (Uuid4.nth n).text (n + 1) [], 10, now⟩

/-- The first `n` of these snapshots, all received at the time 2. -/
def filling (n : ℕ) : List Action := (List.range n).map (fun i => .call (empty_snapshot i 2))

def filled (n : ℕ) : DB := run sample_env DB.initial (filling n)

theorem filled_succ (n : ℕ) : filled (n + 1) = ((empty_snapshot n 2).perform sample_env (filled n)).2 := by
  rw [filled, filling, List.range_succ, List.map_append, run_append]
  rfl

theorem filled_reachable (n : ℕ) : Reachable sample_env (filled n) := ⟨_, rfl⟩

theorem empty_snapshot_validated {n : ℕ} (hn : n ≤ 1000) (now : ℚ) :
    (empty_snapshot n now).request.Validated := by
  have hseq : _seq (.int ((n + 1 : ℕ) : ℤ)) = .ok (n + 1) :=
    Sender.receiver_seq (by omega) (by unfold max_seq; omega)
  refine .snapshot (show validate_snapshot (.str (Uuid4.nth n).text) (.int ((n + 1 : ℕ) : ℤ))
    (.arr []) 10 = _ from ?_)
  unfold validate_snapshot
  rw [Sender.receiver_uuid (Uuid4.is_canonical _), hseq]
  rfl

/-- A client without claims, whose snapshots are the first `n`, all received at the time 2. -/
structure Filled (n : ℕ) (db : DB) : Prop where
  claims : db.claims.rows = []
  last_seq : last_seq db "a".toList = n
  length : (client_snapshots db "a".toList).length = n
  rows : ∀ r ∈ client_snapshots db "a".toList,
    r.received_at = 2 ∧ ∃ i < n, r.snapshot_id = (Uuid4.nth i).text

theorem Filled.accepted {n : ℕ} {db : DB} (h : Filled n db) (hbelow : HistoryBelow db "a".toList)
    (hn : n ≤ 1000) (now : ℚ) : ∃ db', (empty_snapshot n now).perform sample_env db =
      (.ok ⟨true, false, false, n + 1⟩, db') ∧ db'.claims.rows = [] := by
  -- the stored ids are the earlier ones of the sequence
  have hid : ∀ r ∈ db.snapshots.rows, r.id_key ≠ ("a".toList, (Uuid4.nth n).text) := by
    intro r hr hkey
    have hmem : r ∈ client_snapshots db "a".toList :=
      List.mem_filter.mpr ⟨hr, decide_eq_true (congrArg Prod.fst hkey)⟩
    obtain ⟨-, i, hi, hid⟩ := h.rows r hmem
    have hsame := Uuid4.nth_text_injective (by omega) (by omega)
      (hid.symm.trans (congrArg Prod.snd hkey))
    omega
  have hprior : db.snapshots.lookup SnapshotRow.id_key ("a".toList, (Uuid4.nth n).text) = none :=
    Table.lookup_eq_none.mpr hid
  have habove : Store.last_seq db "a".toList < n + 1 := by
    rw [h.last_seq]
    exact Nat.lt_succ_self n
  obtain ⟨snapshots, hsnapshots⟩ := Option.isSome_iff_exists.mp
    (@snapshots_insert_isSome db "a".toList (Uuid4.nth n).text
      (payload_hash sample_env (snapshot_payload (Uuid4.nth n).text (n + 1) [])) (n + 1) now
      hbelow habove hprior)
  have hnew : ¬ n + 1 ≤ n := by omega
  have htotal : ¬ MAX_TOTAL_CLAIMS < total_claims
      (delete_claims (ensure_client db "a".toList now) "a".toList) := by
    rw [total_claims, delete_claims, Table.rows_delete, ensure_client_claims, h.claims]
    exact Nat.not_lt_zero _
  unfold Call.perform empty_snapshot
  dsimp only
  unfold apply_snapshot apply_snapshot_body
  dsimp only
  rw [if_neg (show ¬ 10 < ([] : List Claim).length by decide), ensure_client_snapshots, hprior,
    last_seq_ensure_client, h.last_seq, Option.any_none, if_neg Bool.false_ne_true, if_neg hnew]
  unfold apply_fresh_snapshot
  rw [List.any_nil, if_neg Bool.false_ne_true, List.map_nil, List.foldlM_nil]
  dsimp only [pure, Except.pure, Except.bind]
  rw [if_neg htotal, delete_claims, ensure_client_snapshots, hsnapshots]
  refine ⟨_, rfl, ?_⟩
  show ((ensure_client db "a".toList now).claims.delete _).rows = []
  rw [Table.rows_delete, ensure_client_claims, h.claims]
  rfl

/-- As long as there is room, nothing is cut off. -/
theorem filled_spec {n : ℕ} (hn : n ≤ 1000) : Filled n (filled n) := by
  induction n with
  | zero => exact ⟨rfl, rfl, rfl, fun r hr => (by cases hr)⟩
  | succ n ih =>
    have h := ih (by omega)
    obtain ⟨db', hp, hclaims⟩ :=
      h.accepted (reachable_history_below (filled_reachable n) _) (by omega) 2
    obtain ⟨hfresh, -⟩ := fresh_of_is_fresh hp rfl
    rw [filled_succ, hp]
    have htruncated := truncated_snapshots rfl hp hfresh
    have hrow : (empty_snapshot n 2).snapshot_rows sample_env = [⟨"a".toList, (Uuid4.nth n).text, n + 1,
        payload_hash sample_env (snapshot_payload (Uuid4.nth n).text (n + 1) []), 2⟩] := rfl
    have hclient : (empty_snapshot n 2).client_id = "a".toList := rfl
    rw [hrow, hclient] at htruncated
    have hroom : ∀ r, (client_snapshots (filled n) "a".toList ++ [r]).length ≤ 1000 := by
      intro r
      rw [List.length_append, List.length_singleton, h.length]
      omega
    have hmem := fun x => (htruncated.mem x).trans (first_of_length_le (hroom _))
    refine ⟨hclaims, ?_, ?_, fun r hr => ?_⟩
    · rw [hfresh.last_seq, if_pos hclient.symm]
      rfl
    · have hkept : (client_snapshots db' "a".toList).Nodup :=
        (Table.rows_nodup _ snapshot_compat_self).filter _
      rw [((List.perm_ext_iff_of_nodup hkept htruncated.nodup).mpr hmem).length_eq,
        List.length_append, h.length, List.length_singleton]
    · rcases List.mem_append.mp ((hmem r).mp hr) with hold | hnew
      · obtain ⟨htime, i, hi, hid⟩ := h.rows r hold
        exact ⟨htime, i, by omega, hid⟩
      · rw [List.mem_singleton.mp hnew]
        exact ⟨rfl, n, by omega, rfl⟩

/-- All stored rows have a later time than a snapshot received at the time 1. -/
theorem Filled.no_room {n : ℕ} {db : DB} (h : Filled n db) (m : ℕ) (hn : 1000 ≤ n) :
    ¬ (empty_snapshot m 1).HasRoom sample_env db := by
  have hlater : (empty_snapshot m 1).later db = n := by
    show ((client_snapshots db "a".toList).filter (fun r => 1 < r.received_at)).length = n
    rw [List.filter_eq_self.mpr, h.length]
    intro r hr
    rw [(h.rows r hr).1]
    decide
  have hcap : (empty_snapshot m 1).cap sample_env = 1000 := rfl
  have hseqs : (empty_snapshot m 1).request.seqs.length = 1 := rfl
  rw [Call.HasRoom, hlater, hcap, hseqs]
  omega

/-- A thousand snapshots are stored; the clock is set back by a second and one more comes. It is
accepted and deleted at once: the same call again is stale, and the history does not hold the
snapshot of the highest number. -/
theorem clock_set_back :
    (∀ n ≤ 1000, ∀ now, (empty_snapshot n now).request.Validated) ∧
      ∃ db', (empty_snapshot 1000 1).perform sample_env (filled 1000) =
          (.ok ⟨true, false, false, 1001⟩, db') ∧
        (empty_snapshot 1000 1).perform sample_env db' = (.ok ⟨true, false, true, 1001⟩, db') ∧
        ∀ r ∈ client_snapshots db' "a".toList, r.seq ≠ 1001 := by
  have hfilled := filled_spec (le_refl 1000)
  have hbelow := reachable_history_below (filled_reachable 1000) "a".toList
  obtain ⟨db', hp, -⟩ := hfilled.accepted hbelow (le_refl _) 1
  obtain ⟨hfresh, -⟩ := fresh_of_is_fresh hp rfl
  have hroom := hfilled.no_room 1000 (le_refl _)
  have hgone := (snapshot_kept_iff rfl hp hfresh hbelow).not.mpr hroom
  refine ⟨fun n hn now => empty_snapshot_validated hn now, db', hp, ?_, ?_⟩
  · exact snapshot_again rfl hp hfresh 1 ⟨fun h => (by cases h), fun h => absurd h hgone⟩
  · intro r hr hseq
    refine hgone fun x hx => ?_
    -- the only row of that number is the one the call wrote
    have hmem := mem_of_first (((truncated_snapshots rfl hp hfresh).mem r).mp hr)
    rcases List.mem_append.mp hmem with hold | hnew
    · obtain ⟨hrow, hclient⟩ := List.mem_filter.mp hold
      have hle := hbelow.snapshots r hrow (of_decide_eq_true hclient)
      rw [hfilled.last_seq, hseq] at hle
      omega
    · rw [List.mem_singleton.mp hx, ← List.mem_singleton.mp hnew]
      exact hr

end F2bguard.Store
