/-
The histories are no input.

Claims and sequence numbers are computed from claims and sequence numbers: two stores that agree
on these (`Agree`) still agree after the same call, whatever their histories hold, and give the
same answer up to the two flags (`perform_agree`). What a call reads of the histories could only
make it refuse, or call an old request a duplicate or stale. It does not refuse when each
identity always comes with the same content, since a stored row is then one that was sent
(`Issued`) and lies below `last_seq`.

So the run of some calls is not changed by prunings between them, by other clock readings or by
other caps (`history_is_no_input`).
-/
import F2bguard.Constraints
import F2bguard.SideBySide

set_option autoImplicit false

namespace F2bguard.Store

open F2bguard.PyText F2bguard.PyJson F2bguard.Claims F2bguard.Tables F2bguard.Lifecycle
open F2bguard.SideBySide

/-! ## What the claims say

The time of the last change is left out: two runs at different times differ in it and in nothing
that is read again. -/

/-- The rows of `claims` without the times of their last change. -/
def claim_entries (db : DB) : List ((Text × Text × Text) × ClaimValue) :=
  db.claims.rows.map (fun r => (r.key, r.value))

/-- The same claims in the same order. -/
def SameClaims (db db' : DB) : Prop := claim_entries db = claim_entries db'

/-- The same claims and the same sequence numbers. -/
structure Agree (db db' : DB) : Prop where
  claims : SameClaims db db'
  last_seq : ∀ c, last_seq db c = last_seq db' c

theorem claim_set_eq_find (db : DB) (c : Text) (k : ClaimKey) :
    claim_set db c k = ((claim_entries db).find? (fun p => p.1 = (c, k))).map Prod.snd := by
  rw [claim_set, Table.lookup, claim_entries, List.find?_map, Option.map_map]
  rfl

theorem claim_count_eq_length (db : DB) (c : Text) :
    claim_count db c = ((claim_entries db).filter (fun p => p.1.1 = c)).length := by
  rw [claim_count, claim_entries, List.filter_map, List.length_map]
  rfl

theorem total_claims_eq_length (db : DB) : total_claims db = (claim_entries db).length := by
  rw [total_claims, claim_entries, List.length_map]

theorem entries_update {rows : List ClaimRow} {k : Text × Text × Text} {f : ClaimRow → ClaimRow}
    {v : ClaimValue} (hf : ∀ r, (f r).key = r.key ∧ (f r).value = v) :
    (rows.map (fun r => if r.key = k then f r else r)).map (fun r => (r.key, r.value)) =
      (rows.map (fun r => (r.key, r.value))).map (fun p => if p.1 = k then (p.1, v) else p) := by
  rw [List.map_map, List.map_map]
  apply List.map_congr_left
  intro r _
  dsimp only [Function.comp_apply]
  split
  · rw [(hf r).1, (hf r).2]
  · rfl

theorem upsert_claim_entries {db db' : DB} {row : ClaimRow} (h : upsert_claim db row = .ok db') :
    claim_entries db' =
      if (claim_entries db).any (fun p => p.1 = row.key) then
        (claim_entries db).map (fun p => if p.1 = row.key then (p.1, row.value) else p)
      else claim_entries db ++ [(row.key, row.value)] := by
  have hany : (claim_entries db).any (fun p => p.1 = row.key) =
      db.claims.rows.any (fun r => r.key = row.key) := by
    rw [claim_entries, List.any_map]
    rfl
  unfold upsert_claim at h
  split at h
  · obtain ⟨claims, hclaims, rfl⟩ := map_eq_ok.mp h
    rw [constrained_eq_ok] at hclaims
    rw [hany]
    by_cases hrow : db.claims.rows.any (fun r => r.key = row.key) = true
    · rw [Table.upsert_of_any hrow, Table.update_eq_some] at hclaims
      rw [if_pos hrow, claim_entries, hclaims]
      simp only [decide_eq_true_eq]
      exact entries_update (fun r => ⟨rfl, rfl⟩)
    · rw [Table.upsert_of_not_any (Bool.eq_false_iff.mpr hrow), Table.insert_eq_some] at hclaims
      rw [if_neg hrow, claim_entries, hclaims, List.map_append]
      rfl
  · cases h

theorem insert_claim_entries {db db' : DB} {row : ClaimRow} (h : insert_claim db row = .ok db') :
    claim_entries db' = claim_entries db ++ [(row.key, row.value)] := by
  obtain ⟨claims, rfl, hrows⟩ := insert_claim_spec h
  rw [claim_entries, hrows, List.map_append]
  rfl

theorem insert_claim_isOk {db : DB} {row : ClaimRow} (hclient : client_exists db row.client_id) :
    (∃ db', insert_claim db row = .ok db') ↔ ∀ p ∈ claim_entries db, p.1 ≠ row.key := by
  unfold insert_claim
  rw [if_pos hclient]
  simp only [map_eq_ok, constrained_eq_ok, claim_entries, List.forall_mem_map]
  rw [← show (db.claims.insert row).isSome ↔ ∀ r ∈ db.claims.rows, r.key ≠ row.key from
    Table.insert_isSome, Option.isSome_iff_exists]
  constructor
  · rintro ⟨_, claims, hclaims, -⟩
    exact ⟨claims, hclaims⟩
  · rintro ⟨claims, hclaims⟩
    exact ⟨_, claims, hclaims, rfl⟩

section Agree

variable {db db' : DB}

theorem SameClaims.claim_set (h : SameClaims db db') (c : Text) :
    Store.claim_set db c = Store.claim_set db' c := by
  funext k
  rw [claim_set_eq_find, claim_set_eq_find, h]

theorem SameClaims.claim_ip (h : SameClaims db db') (c jail ban_id : Text) :
    Store.claim_ip db c jail ban_id = Store.claim_ip db' c jail ban_id := by
  rw [claim_ip_eq, claim_ip_eq, h.claim_set]

theorem SameClaims.claim_count (h : SameClaims db db') (c : Text) :
    Store.claim_count db c = Store.claim_count db' c := by
  rw [claim_count_eq_length, claim_count_eq_length, h]

theorem SameClaims.total_claims (h : SameClaims db db') :
    Store.total_claims db = Store.total_claims db' := by
  rw [total_claims_eq_length, total_claims_eq_length, h]

theorem SameClaims.check_limits (h : SameClaims db db') (c : Text) (limit : ℕ) :
    Store.check_limits db c limit = Store.check_limits db' c limit := by
  unfold Store.check_limits
  rw [h.claim_count, h.total_claims]

theorem SameClaims.ensure_client (h : SameClaims db db') (c c' : Text) (now now' : ℚ) :
    SameClaims (ensure_client db c now) (ensure_client db' c' now') := by
  rw [SameClaims, claim_entries, claim_entries, ensure_client_claims, ensure_client_claims]
  exact h

theorem Agree.ensure_client (h : Agree db db') (c : Text) (now now' : ℚ) :
    Agree (ensure_client db c now) (ensure_client db' c now') := by
  refine ⟨h.claims.ensure_client c c now now', fun c' => ?_⟩
  rw [last_seq_ensure_client, last_seq_ensure_client]
  exact h.last_seq c'

theorem Agree.set_last_seq (h : Agree db db') {c : Text} (hclient : client_exists db c)
    (hclient' : client_exists db' c) (seq : ℕ) (now now' : ℚ) :
    Agree (set_last_seq db c seq now) (set_last_seq db' c seq now') := by
  refine ⟨h.claims, fun c' => ?_⟩
  rw [last_seq_set_last_seq _ _ _ _ hclient, last_seq_set_last_seq _ _ _ _ hclient', h.last_seq]

end Agree

/-! ## The loops

One turn on two stores: it looks at the claims and at the constraints, and both agree as far as
the rest of the batch is concerned. -/

section Loops

variable {db db' : DB} {c : Text}

theorem apply_op_alike (h : SameClaims db db') (hclient : client_exists db c)
    (hclient' : client_exists db' c) (now now' : ℚ) (e : Event) :
    Alike SameClaims (apply_op c now db e) (apply_op c now' db' e) := by
  unfold apply_op
  rw [h.claim_ip]
  cases hop : e.op with
  | ban =>
    dsimp only
    split
    · exact .error _
    · obtain ⟨db1, h1⟩ := @upsert_claim_ok db (ban_row c now e) hclient
      obtain ⟨db1', h1'⟩ := @upsert_claim_ok db' (ban_row c now' e) hclient'
      rw [h1, h1']
      refine .ok ?_
      rw [SameClaims, upsert_claim_entries h1, upsert_claim_entries h1', h]
      rfl
  | unban =>
    dsimp only
    split
    · exact .error _
    · have hdelete : ∀ db : DB, claim_entries { db with
            claims := db.claims.delete (fun r => r.key = (c, e.jail, e.ban_id) ∧ r.ip = e.ip) } =
          (claim_entries db).filter
            (fun p => !decide (p.1 = (c, e.jail, e.ban_id) ∧ p.2.ip = e.ip)) := by
        intro db
        rw [claim_entries, claim_entries, Table.rows_delete, List.filter_map]
        rfl
      refine .ok ?_
      rw [SameClaims, hdelete, hdelete, h]

/-- One turn, when the rest of the batch fits both histories. -/
theorem apply_event_alike (env env' : Env) (now now' : ℚ) {e : Event} {es : List Event}
    (h : SameClaims db db') (hins : Insertable db c (e :: es))
    (hins' : Insertable db' c (e :: es)) :
    Alike (fun x y => SameClaims x y ∧ Insertable x c es ∧ Insertable y c es)
      (apply_event env c now db e) (apply_event env' c now' db' e) := by
  obtain ⟨events, heq⟩ := hins.apply_event_eq env now
  obtain ⟨events', heq'⟩ := hins'.apply_event_eq env' now'
  have halike : Alike SameClaims (apply_event env c now db e)
      (apply_event env' c now' db' e) := by
    rw [heq, heq']
    exact (apply_op_alike h hins.client hins'.client now now' e).map (fun _ _ h => h)
  exact halike.with_eq.imp (fun _ _ h => ⟨h.1, hins.step h.2.1, hins'.step h.2.2⟩)

theorem apply_events_loop_alike (env env' : Env) (now now' : ℚ) {es : List Event}
    (h : SameClaims db db') (hins : Insertable db c es) (hins' : Insertable db' c es) :
    Alike (fun x y => SameClaims x y ∧ Insertable x c [] ∧ Insertable y c [])
      (es.foldlM (apply_event env c now) db) (es.foldlM (apply_event env' c now') db') :=
  foldlM_alike (R := fun es x y => SameClaims x y ∧ Insertable x c es ∧ Insertable y c es)
    (f := apply_event env c now) (g := apply_event env' c now')
    (fun _ _ _ _ h => apply_event_alike env env' now now' h.1 h.2.1 h.2.2) ⟨h, hins, hins'⟩

theorem insert_claim_alike (h : SameClaims db db') (hclient : client_exists db c)
    (hclient' : client_exists db' c) (now now' : ℚ) (claim : Claim) :
    Alike SameClaims (insert_claim db (claim_row c now claim))
      (insert_claim db' (claim_row c now' claim)) := by
  -- both inserts succeed on the same keys
  have hiff := @insert_claim_isOk db (claim_row c now claim) hclient
  have hiff' := @insert_claim_isOk db' (claim_row c now' claim) hclient'
  have hkey : (claim_row c now claim).key = (claim_row c now' claim).key := rfl
  rw [h, hkey, ← hiff'] at hiff
  cases hx : insert_claim db (claim_row c now claim) with
  | ok db1 =>
    obtain ⟨db1', hx'⟩ := hiff.mp ⟨db1, hx⟩
    rw [hx']
    refine .ok ?_
    rw [SameClaims, insert_claim_entries hx, insert_claim_entries hx', h]
    rfl
  | error err =>
    cases hx' : insert_claim db' (claim_row c now' claim) with
    | ok db1' =>
      obtain ⟨db1, hok⟩ := hiff.mpr ⟨db1', hx'⟩
      rw [hx] at hok
      cases hok
    | error err' =>
      -- and the only error of an insert is the broken constraint
      have hintegrity : ∀ {db : DB} {row : ClaimRow} {err : StoreError},
          insert_claim db row = .error err → err = .integrity := by
        intro db row err h
        unfold insert_claim at h
        split at h
        · have h := map_eq_error.mp h
          cases hi : db.claims.insert row with
          | none => rw [hi] at h; cases h; rfl
          | some t => rw [hi] at h; cases h
        · cases h
          rfl
      rw [hintegrity hx, hintegrity hx']
      exact .error _

theorem insert_claims_alike (h : SameClaims db db') (hclient : client_exists db c)
    (hclient' : client_exists db' c) (now now' : ℚ) (claims : List Claim) :
    Alike (fun x y => SameClaims x y ∧ client_exists x c ∧ client_exists y c)
      ((claims.map (claim_row c now)).foldlM insert_claim db)
      ((claims.map (claim_row c now')).foldlM insert_claim db') := by
  rw [List.foldlM_map, List.foldlM_map]
  refine foldlM_alike (R := fun _ x y => SameClaims x y ∧ client_exists x c ∧ client_exists y c)
    ?_ ⟨h, hclient, hclient'⟩
  rintro claim - x y ⟨hclaims, hx, hy⟩
  refine (insert_claim_alike hclaims hx hy now now' claim).with_eq.imp (fun x1 y1 h1 => ?_)
  obtain ⟨hclaims1, hx1, hy1⟩ := h1
  obtain ⟨_, rfl, -⟩ := insert_claim_spec hx1
  obtain ⟨_, rfl, -⟩ := insert_claim_spec hy1
  exact ⟨hclaims1, hx, hy⟩

end Loops

/-! ## Calls

The parts of a call one after the other: the check against the history, the loop, the limits. The
first is the only one that reads the histories. -/

/-- What a caller is told, apart from the flags `duplicate` and `stale`. -/
def answer (result : Except StoreError ApplyResult) : Except StoreError (Bool × ℕ) :=
  result.map (fun r => (r.accepted, r.last_seq))

/-- The events of a request. -/
def Request.event_list : Request → List Event
  | .events es => es
  | .snapshot _ _ _ => []

/-- What is stored under the identities of a request is that request. -/
structure Clean (env : Env) (db : DB) (c : Text) (request : Request) : Prop where
  events : ∀ e ∈ request.event_list, ∀ r ∈ db.events.rows, r.id_key = (c, e.event_id) →
    r.seq = e.seq ∧ r.payload_hash = payload_hash env e.wire
  snapshots : ∀ snapshot_id seq claims, request = .snapshot snapshot_id seq claims →
    ∀ r ∈ db.snapshots.rows, r.id_key = (c, snapshot_id) →
      r.seq = seq ∧ r.payload_hash = payload_hash env (snapshot_payload snapshot_id seq claims)

/-- A result of one store and a result of the other. -/
def SameResult (x y : ApplyResult × DB) : Prop :=
  x.1.accepted = y.1.accepted ∧ x.1.last_seq = y.1.last_seq ∧ Agree x.2 y.2

theorem transaction_agree {db db' : DB} {x y : Except StoreError (ApplyResult × DB)}
    (h : Agree db db') (halike : Alike SameResult x y) :
    answer (transaction db x).1 = answer (transaction db' y).1 ∧
      Agree (transaction db x).2 (transaction db' y).2 := by
  cases halike with
  | error e => exact ⟨rfl, h⟩
  | ok hsame =>
    obtain ⟨haccepted, hseq, hagree⟩ := hsame
    refine ⟨?_, hagree⟩
    unfold answer transaction
    dsimp only [Except.map]
    rw [haccepted, hseq]

section Calls

variable {env env' : Env} {db db' : DB} {c : Text} {now now' : ℚ}

theorem apply_fresh_events_alike {es : List Event} (h : Agree db db')
    (hins : Insertable db c es) (hins' : Insertable db' c es) (new_seq limit : ℕ) :
    Alike SameResult (apply_fresh_events env db c es new_seq limit now)
      (apply_fresh_events env' db' c es new_seq limit now') := by
  refine (apply_events_loop_alike env env' now now' h.claims hins hins').with_eq.bind ?_
  rintro x y ⟨⟨hclaims, hx, hy⟩, hloop, hloop'⟩
  have hagree : Agree x y := by
    refine ⟨hclaims, fun c' => ?_⟩
    have hlast := h.last_seq c'
    rw [last_seq, last_seq] at hlast ⊢
    rw [(foldlM_apply_event hloop).client_state, (foldlM_apply_event hloop').client_state]
    exact hlast
  rw [hclaims.check_limits]
  cases check_limits y c limit with
  | error err => exact .error err
  | ok _ =>
    have hset := hagree.set_last_seq hx.client hy.client new_seq now now'
    exact .ok ⟨rfl, rfl, hset.claims, hset.last_seq⟩

theorem apply_fresh_snapshot_alike {snapshot_id : Text} {seq : ℕ} {claims : List Claim}
    (h : Agree db db') (hclient : client_exists db c) (hclient' : client_exists db' c)
    (hinsert : (db.snapshots.insert ⟨c, snapshot_id, seq,
      payload_hash env (snapshot_payload snapshot_id seq claims), now⟩).isSome)
    (hinsert' : (db'.snapshots.insert ⟨c, snapshot_id, seq,
      payload_hash env' (snapshot_payload snapshot_id seq claims), now'⟩).isSome) :
    Alike SameResult (apply_fresh_snapshot env db c snapshot_id seq claims now)
      (apply_fresh_snapshot env' db' c snapshot_id seq claims now') := by
  have hdeleted : SameClaims (delete_claims db c) (delete_claims db' c) := by
    have hdelete : ∀ db : DB, claim_entries (delete_claims db c) =
        (claim_entries db).filter (fun p => !decide (p.1.1 = c)) := by
      intro db
      rw [claim_entries, claim_entries, delete_claims, Table.rows_delete, List.filter_map]
      rfl
    rw [SameClaims, hdelete, hdelete, h.claims]
  have hany : claims.any (fun x => (claim_ip db c x.jail x.ban_id).any (· ≠ x.ip)) =
      claims.any (fun x => (claim_ip db' c x.jail x.ban_id).any (· ≠ x.ip)) := by
    congr 1
    funext x
    rw [h.claims.claim_ip]
  unfold apply_fresh_snapshot
  rw [hany]
  split
  · exact .error _
  refine (insert_claims_alike hdeleted hclient hclient' now now' claims).with_eq.bind ?_
  rintro x y ⟨⟨hclaims, hx, hy⟩, hloop, hloop'⟩
  obtain ⟨t, rfl, -⟩ := foldlM_insert_claim hloop
  obtain ⟨t', rfl, -⟩ := foldlM_insert_claim hloop'
  obtain ⟨snapshots, hs⟩ := Option.isSome_iff_exists.mp hinsert
  obtain ⟨snapshots', hs'⟩ := Option.isSome_iff_exists.mp hinsert'
  dsimp only
  rw [hclaims.total_claims]
  split
  · exact .error _
  · have hrows : (delete_claims db c).snapshots = db.snapshots := rfl
    have hrows' : (delete_claims db' c).snapshots = db'.snapshots := rfl
    rw [hrows, hrows', hs, hs']
    have hset := (show Agree { delete_claims db c with claims := t, snapshots }
        { delete_claims db' c with claims := t', snapshots := snapshots' } from
      ⟨hclaims, h.last_seq⟩).set_last_seq hx hy seq now now'
    exact .ok ⟨rfl, rfl, hset.claims, hset.last_seq⟩

/-- What is clean and above the stored number is not in the history. -/
theorem Clean.unused {request : Request} (h : Clean env db c request) (hbelow : HistoryBelow db c)
    {e : Event} (he : e ∈ request.event_list) (hnew : last_seq db c < e.seq) :
    prior_event db c e = none := by
  cases hprior : prior_event db c e with
  | none => rfl
  | some r =>
    obtain ⟨hr, hid⟩ := prior_event_mem hprior
    have hseq := (h.events e he r hr hid).1
    have := hbelow.events r hr (congrArg Prod.fst hid)
    omega

theorem Clean.not_reused {request : Request} (h : Clean env db c request) {e : Event}
    (he : e ∈ request.event_list) : event_reused env db c e = false := by
  rw [Bool.eq_false_iff, event_reused, ne_eq, Option.any_eq_true]
  rintro ⟨r, hr, hne⟩
  obtain ⟨hmem, hid⟩ := prior_event_mem hr
  obtain ⟨hseq, hhash⟩ := h.events e he r hmem hid
  simp [hseq, hhash] at hne

theorem Clean.ensure_client {request : Request} (h : Clean env db c request) (c' : Text) (now : ℚ) :
    Clean env (ensure_client db c' now) c request :=
  ⟨by rw [ensure_client_events]; exact h.events, by rw [ensure_client_snapshots]; exact h.snapshots⟩

theorem apply_events_body_alike {first : Event} {rest : List Event} {last : Event} {limit : ℕ}
    (h : Agree db db') (hbelow : HistoryBelow db c) (hbelow' : HistoryBelow db' c)
    (hclean : Clean env db c (.events (first :: rest)))
    (hclean' : Clean env' db' c (.events (first :: rest)))
    (hinc : seqs_increase (first :: rest))
    (hids : ((first :: rest).map Event.event_id).Nodup) :
    Alike SameResult (apply_events_body env db c (first :: rest) first last limit now)
      (apply_events_body env' db' c (first :: rest) first last limit now') := by
  have h1 := h.ensure_client c now now'
  have hclient := client_exists_ensure_client db c now
  have hclient' := client_exists_ensure_client db' c now'
  have hclean1 := hclean.ensure_client c now
  have hclean1' := hclean'.ensure_client c now'
  have hbelow1 := hbelow.ensure_client now
  have hbelow1' := hbelow'.ensure_client now'
  unfold apply_events_body
  dsimp only
  generalize ensure_client db c now = x at *
  generalize ensure_client db' c now' = y at *
  have hreused : (first :: rest).any (event_reused env x c) = false :=
    List.any_eq_false.mpr (fun e he => Bool.not_eq_true _ ▸ hclean1.not_reused he)
  have hreused' : (first :: rest).any (event_reused env' y c) = false :=
    List.any_eq_false.mpr (fun e he => Bool.not_eq_true _ ▸ hclean1'.not_reused he)
  have hfalse : ¬ (false = true) := Bool.false_ne_true
  rw [hreused, hreused', if_neg hfalse, if_neg hfalse, h1.last_seq]
  by_cases hold : first.seq ≤ last_seq y c
  · -- an old batch: only the flags depend on the history
    rw [if_pos hold, if_pos hold]
    by_cases hcross : last_seq y c < last.seq
    · rw [if_pos hcross, if_pos hcross]
      exact .error _
    · rw [if_neg hcross, if_neg hcross]
      split <;> split <;> exact .ok ⟨rfl, rfl, h1⟩
  · rw [if_neg hold, if_neg hold]
    have hseqs := List.pairwise_map.mp (seqs_increase_iff.mp hinc)
    have hnew : ∀ e ∈ first :: rest, last_seq y c < e.seq := by
      intro e he
      rcases List.mem_cons.mp he with rfl | he
      · exact not_le.mp hold
      · exact (not_le.mp hold).trans ((List.pairwise_cons.mp hseqs).1 e he)
    have hnew' : ∀ e ∈ first :: rest, last_seq x c < e.seq := by
      rw [h1.last_seq]
      exact hnew
    have hunused := fun e he => hclean1.unused hbelow1 (e := e) he (hnew' e he)
    have hunused' := fun e he => hclean1'.unused hbelow1' (e := e) he (hnew e he)
    have hprior : (first :: rest).any (fun e => (prior_event x c e).isSome) = false :=
      List.any_eq_false.mpr (fun e he => by rw [hunused e he]; exact hfalse)
    have hprior' : (first :: rest).any (fun e => (prior_event y c e).isSome) = false :=
      List.any_eq_false.mpr (fun e he => by rw [hunused' e he]; exact hfalse)
    rw [hprior, hprior', if_neg hfalse, if_neg hfalse]
    exact apply_fresh_events_alike h1 (insertable_of_new hclient hbelow1 hnew' hunused hinc hids)
      (insertable_of_new hclient' hbelow1' hnew hunused' hinc hids) last.seq limit

theorem apply_snapshot_body_alike {snapshot_id : Text} {seq : ℕ} {claims : List Claim}
    (h : Agree db db') (hbelow : HistoryBelow db c) (hbelow' : HistoryBelow db' c)
    (hclean : Clean env db c (.snapshot snapshot_id seq claims))
    (hclean' : Clean env' db' c (.snapshot snapshot_id seq claims)) :
    Alike SameResult (apply_snapshot_body env db c snapshot_id seq claims now)
      (apply_snapshot_body env' db' c snapshot_id seq claims now') := by
  have hreused : ∀ {env : Env} {db : DB}, Clean env db c (.snapshot snapshot_id seq claims) →
      (db.snapshots.lookup SnapshotRow.id_key (c, snapshot_id)).any (fun p => p.seq ≠ seq ∨
        p.payload_hash ≠ payload_hash env (snapshot_payload snapshot_id seq claims)) = false := by
    intro env db hclean
    rw [Bool.eq_false_iff, ne_eq, Option.any_eq_true]
    rintro ⟨r, hr, hne⟩
    obtain ⟨hmem, hid⟩ := Table.lookup_some_mem hr
    obtain ⟨hseq, hhash⟩ := hclean.snapshots _ _ _ rfl r hmem hid
    simp [hseq, hhash] at hne
  have hunused : ∀ {env : Env} {db : DB}, Clean env db c (.snapshot snapshot_id seq claims) →
      HistoryBelow db c → last_seq db c < seq →
        db.snapshots.lookup SnapshotRow.id_key (c, snapshot_id) = none := by
    intro env db hclean hbelow hnew
    rw [Table.lookup_eq_none]
    intro r hr hid
    have hseq := (hclean.snapshots _ _ _ rfl r hr hid).1
    have := hbelow.snapshots r hr (congrArg Prod.fst hid)
    omega
  have h1 := h.ensure_client c now now'
  have hclient := client_exists_ensure_client db c now
  have hclient' := client_exists_ensure_client db' c now'
  have hclean1 := hclean.ensure_client c now
  have hclean1' := hclean'.ensure_client c now'
  have hbelow1 := hbelow.ensure_client now
  have hbelow1' := hbelow'.ensure_client now'
  unfold apply_snapshot_body
  dsimp only
  generalize ensure_client db c now = x at *
  generalize ensure_client db' c now' = y at *
  have hfalse : ¬ (false = true) := Bool.false_ne_true
  rw [hreused hclean1, hreused hclean1', if_neg hfalse, if_neg hfalse, h1.last_seq]
  by_cases hold : seq ≤ last_seq y c
  · rw [if_pos hold, if_pos hold]
    split <;> split <;> exact .ok ⟨rfl, rfl, h1⟩
  · rw [if_neg hold, if_neg hold]
    have hnew := not_le.mp hold
    have hnew' : last_seq x c < seq := by
      rw [h1.last_seq]
      exact hnew
    exact apply_fresh_snapshot_alike h1 hclient hclient'
      (snapshots_insert_isSome hbelow1 hnew' (hunused hclean1 hbelow1 hnew'))
      (snapshots_insert_isSome hbelow1' hnew (hunused hclean1' hbelow1' hnew))

/-- One call on two stores that agree, at two times. -/
theorem perform_agree {request : Request} {limit : ℕ} (h : Agree db db')
    (hbelow : HistoryBelow db c) (hbelow' : HistoryBelow db' c) (hclean : Clean env db c request)
    (hclean' : Clean env' db' c request)
    (hsame : ∀ e ∈ request.event_list, ∀ e' ∈ request.event_list,
      e.event_id = e'.event_id → e = e') :
    answer (Call.perform env db ⟨c, request, limit, now⟩).1 =
        answer (Call.perform env' db' ⟨c, request, limit, now'⟩).1 ∧
      Agree (Call.perform env db ⟨c, request, limit, now⟩).2
        (Call.perform env' db' ⟨c, request, limit, now'⟩).2 := by
  cases request with
  | events es =>
    cases es with
    | nil => exact ⟨rfl, h⟩
    | cons first rest =>
      simp only [Call.perform, apply_events_cons]
      by_cases hinc : seqs_increase (first :: rest)
      · rw [if_neg (not_not.mpr hinc), if_neg (not_not.mpr hinc)]
        have hids : ((first :: rest).map Event.event_id).Nodup := by
          rw [List.Nodup, List.pairwise_map]
          refine (List.pairwise_map.mp (seqs_increase_iff.mp hinc)).imp_of_mem ?_
          intro e e' he he' hseq hid
          rw [hsame e he e' he' hid] at hseq
          exact lt_irrefl _ hseq
        exact transaction_agree h
          (apply_events_body_alike h hbelow hbelow' hclean hclean' hinc hids)
      · rw [if_pos hinc, if_pos hinc]
        exact ⟨rfl, h⟩
  | snapshot snapshot_id seq claims =>
    simp only [Call.perform, apply_snapshot]
    split
    · exact ⟨rfl, h⟩
    · exact transaction_agree h (apply_snapshot_body_alike h hbelow hbelow' hclean hclean')

end Calls

/-! ## What was sent

The assumption of the result is about the callers: an identity is not used again for something
else. That the rows of the histories are what was sent makes it one about the stores. -/

/-- A call without the time at which it is made. -/
structure Posting where
  client_id : Text
  request : Request
  claims_limit : ℕ

def Call.posting (call : Call) : Posting := ⟨call.client_id, call.request, call.claims_limit⟩

/-- Each identity of a client always comes with the same number and content. -/
structure Consistent (sent : List Posting) : Prop where
  events : ∀ p ∈ sent, ∀ p' ∈ sent, p.client_id = p'.client_id →
    ∀ e ∈ p.request.event_list, ∀ e' ∈ p'.request.event_list, e.event_id = e'.event_id → e = e'
  snapshots : ∀ p ∈ sent, ∀ p' ∈ sent, p.client_id = p'.client_id →
    ∀ snapshot_id seq claims seq' claims', p.request = .snapshot snapshot_id seq claims →
      p'.request = .snapshot snapshot_id seq' claims' → seq = seq' ∧ claims = claims'

theorem Consistent.subset {sent sent' : List Posting} (h : Consistent sent) (hsub : sent' ⊆ sent) :
    Consistent sent' :=
  ⟨fun p hp p' hp' => h.events p (hsub hp) p' (hsub hp'),
    fun p hp p' hp' => h.snapshots p (hsub hp) p' (hsub hp')⟩

/-- The rows of the histories are what was sent. -/
structure Issued (env : Env) (sent : List Posting) (db : DB) : Prop where
  events : ∀ r ∈ db.events.rows, ∃ p ∈ sent, r.client_id = p.client_id ∧
    ∃ e ∈ p.request.event_list, r.event_id = e.event_id ∧ r.seq = e.seq ∧
      r.payload_hash = payload_hash env e.wire
  snapshots : ∀ r ∈ db.snapshots.rows, ∃ p ∈ sent, r.client_id = p.client_id ∧
    ∃ seq claims, p.request = .snapshot r.snapshot_id seq claims ∧ r.seq = seq ∧
      r.payload_hash = payload_hash env (snapshot_payload r.snapshot_id seq claims)

section Issued

variable {env : Env} {sent : List Posting} {db : DB}

theorem Issued.mono (h : Issued env sent db) (p : Posting) : Issued env (sent ++ [p]) db := by
  refine ⟨fun r hr => ?_, fun r hr => ?_⟩
  · obtain ⟨p', hp', hrest⟩ := h.events r hr
    exact ⟨p', List.mem_append_left _ hp', hrest⟩
  · obtain ⟨p', hp', hrest⟩ := h.snapshots r hr
    exact ⟨p', List.mem_append_left _ hp', hrest⟩

theorem issued_event_rows {call : Call} {r : EventRow} (h : r ∈ call.event_rows env) :
    r.client_id = call.client_id ∧ ∃ e ∈ call.request.event_list, r.event_id = e.event_id ∧
      r.seq = e.seq ∧ r.payload_hash = payload_hash env e.wire := by
  unfold Call.event_rows at h
  split at h
  · rename_i es hrequest
    obtain ⟨e, he, rfl⟩ := List.mem_map.mp h
    exact ⟨rfl, e, by rw [hrequest]; exact he, rfl, rfl, rfl⟩
  · cases h

theorem issued_snapshot_rows {call : Call} {r : SnapshotRow} (h : r ∈ call.snapshot_rows env) :
    r.client_id = call.client_id ∧
      ∃ seq claims, call.request = .snapshot r.snapshot_id seq claims ∧ r.seq = seq ∧
        r.payload_hash = payload_hash env (snapshot_payload r.snapshot_id seq claims) := by
  unfold Call.snapshot_rows at h
  split at h
  · cases h
  · rename_i snapshot_id seq claims hrequest
    rw [List.mem_singleton.mp h]
    exact ⟨rfl, seq, claims, hrequest, rfl, rfl⟩

theorem Issued.perform (h : Issued env sent db) (call : Call) :
    Issued env (sent ++ [call.posting]) (call.perform env db).2 := by
  have hmono := h.mono call.posting
  have hself : call.posting ∈ sent ++ [call.posting] := List.mem_append_right _ List.mem_cons_self
  rcases hp : call.perform env db with ⟨result, db'⟩
  cases perform_outcome hp with
  | refused e => exact hmono
  | known duplicate hne hold hdb =>
    rw [hdb]
    exact ⟨by rw [ensure_client_events]; exact hmono.events,
      by rw [ensure_client_snapshots]; exact hmono.snapshots⟩
  | fresh hfresh =>
    refine ⟨fun r hr => ?_, fun r hr => ?_⟩
    · rcases List.mem_append.mp (hfresh.events.subset hr) with hold | hnew
      · exact hmono.events r hold
      · exact ⟨call.posting, hself, issued_event_rows hnew⟩
    · rcases List.mem_append.mp (hfresh.snapshots.subset hr) with hold | hnew
      · exact hmono.snapshots r hold
      · exact ⟨call.posting, hself, issued_snapshot_rows hnew⟩

/-- With consistent identities, what is stored under those of the next call is that call. -/
theorem Issued.clean (h : Issued env sent db) {p : Posting} (hconsistent : Consistent (sent ++ [p])) :
    Clean env db p.client_id p.request := by
  have hself : p ∈ sent ++ [p] := List.mem_append_right _ List.mem_cons_self
  refine ⟨fun e he r hr hid => ?_, fun snapshot_id seq claims hrequest r hr hid => ?_⟩
  · obtain ⟨p', hp', hclient, e', he', heid, hseq, hhash⟩ := h.events r hr
    have hsame := hconsistent.events p hself p' (List.mem_append_left _ hp')
      ((congrArg Prod.fst hid).symm.trans hclient) e he e' he'
      ((congrArg Prod.snd hid).symm.trans heid)
    rw [hsame]
    exact ⟨hseq, hhash⟩
  · obtain ⟨p', hp', hclient, seq', claims', hrequest', hseq, hhash⟩ := h.snapshots r hr
    have hsid : r.snapshot_id = snapshot_id := congrArg Prod.snd hid
    rw [hsid] at hrequest' hhash
    obtain ⟨rfl, rfl⟩ := hconsistent.snapshots p hself p' (List.mem_append_left _ hp')
      ((congrArg Prod.fst hid).symm.trans hclient) _ _ _ _ _ hrequest hrequest'
    exact ⟨hseq, hhash⟩

end Issued

/-! ## Two runs

Both runs go along the same calls. What happens between the calls of the second run touches
histories and times, which the relation does not speak about. -/

def Action.posting : Action → Option Posting
  | .call posted => some posted.posting
  | _ => none

def Action.answer (env : Env) (db : DB) : Action → Option (Except StoreError (Bool × ℕ))
  | .call posted => some (Store.answer (posted.perform env db).1)
  | _ => none

/-- What the callers of a run are told, in order. -/
def answers (env : Env) : DB → List Action → List (Except StoreError (Bool × ℕ))
  | _, [] => []
  | db, a :: actions => (a.answer env db).toList ++ answers env (a.perform env db) actions

theorem answers_append (env : Env) (as bs : List Action) : ∀ db : DB,
    answers env db (as ++ bs) = answers env db as ++ answers env (run env db as) bs := by
  induction as with
  | nil => intro db; rfl
  | cons a as ih =>
    intro db
    rw [List.cons_append, answers, answers, ih, List.append_assoc, run_cons]

/-- Other caps and another retention. -/
def Env.with_history (env : Env) (history_days max_history_events max_history_snapshots : ℕ) : Env :=
  { env with history_days, max_history_events, max_history_snapshots }

/-- Two stores that the same calls led to. -/
structure Twins (env env' : Env) (sent : List Posting) (db db' : DB) : Prop where
  agree : Agree db db'
  below : ∀ c, HistoryBelow db c ∧ HistoryBelow db' c
  issued : Issued env sent db
  issued' : Issued env' sent db'

section Twins

variable {env env' : Env} {sent : List Posting} {db db' : DB}

theorem Twins.initial : Twins env env' [] DB.initial DB.initial where
  agree := ⟨rfl, fun _ => rfl⟩
  below c := ⟨HistoryBelow.initial c, HistoryBelow.initial c⟩
  issued := ⟨fun _ hr => (by cases hr), fun _ hr => (by cases hr)⟩
  issued' := ⟨fun _ hr => (by cases hr), fun _ hr => (by cases hr)⟩

/-- What happens in one run only. -/
theorem Twins.quiet (h : Twins env env' sent db db') {a : Action} (ha : a.posting = none) :
    Twins env env' sent db (a.perform env' db') := by
  cases a with
  | call call => cases ha
  | prune now =>
    refine ⟨⟨h.agree.claims, h.agree.last_seq⟩, fun c => ⟨(h.below c).1, (h.below c).2.prune now⟩,
      h.issued, ⟨fun r hr => ?_, fun r hr => ?_⟩⟩
    · exact h.issued'.events r (Table.mem_delete.mp hr).1
    · exact h.issued'.snapshots r (Table.mem_delete.mp hr).1
  | attempt digest now =>
    exact ⟨⟨h.agree.claims, h.agree.last_seq⟩,
      fun c => ⟨(h.below c).1, (h.below c).2.events, (h.below c).2.snapshots⟩, h.issued,
      ⟨h.issued'.events, h.issued'.snapshots⟩⟩
  | success digest applied ipv4 ipv6 now =>
    exact ⟨⟨h.agree.claims, h.agree.last_seq⟩,
      fun c => ⟨(h.below c).1, (h.below c).2.events, (h.below c).2.snapshots⟩, h.issued,
      ⟨h.issued'.events, h.issued'.snapshots⟩⟩
  | failure digest error now =>
    exact ⟨⟨h.agree.claims, h.agree.last_seq⟩,
      fun c => ⟨(h.below c).1, (h.below c).2.events, (h.below c).2.snapshots⟩, h.issued,
      ⟨h.issued'.events, h.issued'.snapshots⟩⟩

/-- The same call in both runs. -/
theorem Twins.step (h : Twins env env' sent db db') {call call' : Call}
    (hposting : call'.posting = call.posting) (hconsistent : Consistent (sent ++ [call.posting])) :
    answer (call.perform env db).1 = answer (call'.perform env' db').1 ∧
      Twins env env' (sent ++ [call.posting]) (call.perform env db).2 (call'.perform env' db').2 := by
  have hself : call.posting ∈ sent ++ [call.posting] :=
    List.mem_append_right _ List.mem_cons_self
  have hissued' := h.issued'.perform call'
  rw [hposting] at hissued'
  have hclean' := h.issued'.clean hconsistent
  obtain ⟨c, request, limit, now⟩ := call
  obtain ⟨c', request', limit', now'⟩ := call'
  obtain ⟨rfl, rfl, rfl⟩ := Posting.mk.inj hposting
  obtain ⟨hanswer, hagree⟩ := @perform_agree env env' db db' c' now now' request' limit' h.agree
    (h.below c').1 (h.below c').2 (h.issued.clean hconsistent) hclean'
    (hconsistent.events _ hself _ hself rfl)
  exact ⟨hanswer, hagree, fun x => ⟨(h.below x).1.perform _, (h.below x).2.perform _⟩,
    h.issued.perform _, hissued'⟩

/-- A run of calls and one of the same calls with anything else between them. -/
theorem twins_run (env env' : Env) (actions : List Action) : ∀ calls : List Call,
    actions.filterMap Action.posting = calls.map Call.posting →
    Consistent (calls.map Call.posting) →
      Twins env env' (calls.map Call.posting) (run env DB.initial (calls.map .call))
          (run env' DB.initial actions) ∧
        answers env DB.initial (calls.map .call) = answers env' DB.initial actions := by
  induction actions using List.reverseRecOn with
  | nil =>
    intro calls hsame _
    rw [List.filterMap_nil] at hsame
    rw [List.map_eq_nil_iff.mp hsame.symm]
    exact ⟨Twins.initial, rfl⟩
  | append_singleton actions a ih =>
    intro calls hsame hconsistent
    have hone : [a].filterMap Action.posting = a.posting.toList := by
      cases ha : a.posting <;> simp [ha]
    rw [List.filterMap_append, hone] at hsame
    rw [run_append, run_cons, run_nil, answers_append]
    cases ha : a.posting with
    | none =>
      -- an action that posts nothing is in the second run only
      rw [ha, Option.toList_none, List.append_nil] at hsame
      obtain ⟨htwins, hanswers⟩ := ih calls hsame hconsistent
      have hanswer : a.answer env' (run env' DB.initial actions) = none := by
        cases a with
        | call call => cases ha
        | _ => rfl
      rw [answers, answers, hanswer, hanswers]
      exact ⟨htwins.quiet ha, by simp⟩
    | some posting =>
      rw [ha, Option.toList_some] at hsame
      -- a posting is the last call of the first run too
      obtain ⟨before, last, rfl, hbefore, hlast⟩ := List.map_eq_append_iff.mp hsame.symm
      obtain ⟨call, rfl, rfl⟩ := List.map_eq_singleton_iff.mp hlast
      have hsub : before.map Call.posting ⊆ (before ++ [call]).map Call.posting := by
        rw [List.map_append]
        exact List.subset_append_left _ _
      obtain ⟨htwins, hanswers⟩ := ih before hbefore.symm (hconsistent.subset hsub)
      cases a with
      | call call' =>
        have hposting : call'.posting = call.posting := Option.some.inj ha
        rw [List.map_append] at hconsistent
        obtain ⟨hanswer, hstep⟩ := htwins.step hposting hconsistent
        rw [List.map_append, List.map_append, run_append, answers_append, hanswers]
        refine ⟨hstep, ?_⟩
        rw [List.map_singleton, answers, answers, Action.answer, hanswer]
        rfl
      | _ => cases ha

end Twins

/-- **The histories are no input.** Take any calls in which each identity always comes with the
same number and content, and a second run of the same calls: at other times, with other caps, and
with prunings or enforcement records wherever one likes. At every point of the second run the
claims and sequence numbers of every client, and what the callers were told up to the two flags,
are those of the first run after the calls made so far. So pruning loses nothing but the ability
to tell a repetition from an old request. -/
theorem history_is_no_input (env : Env) (days max_events max_snapshots : ℕ) (calls : List Call)
    (actions : List Action) (hsame : actions.filterMap Action.posting = calls.map Call.posting)
    (hconsistent : Consistent (calls.map Call.posting)) (before : List Action)
    (hbefore : before <+: actions) :
    let env' := env.with_history days max_events max_snapshots
    let made := calls.take (before.filterMap Action.posting).length
    let db := run env DB.initial (made.map .call)
    let db' := run env' DB.initial before
    (∀ c, claim_set db c = claim_set db' c) ∧ (∀ c, last_seq db c = last_seq db' c) ∧
      answers env DB.initial (made.map .call) = answers env' DB.initial before := by
  intro env' made db db'
  obtain ⟨after, rfl⟩ := hbefore
  have hmade : before.filterMap Action.posting = made.map Call.posting := by
    rw [List.map_take, ← hsame, List.filterMap_append, List.take_left]
  have hsub : made.map Call.posting ⊆ calls.map Call.posting := by
    rw [List.map_take]
    exact List.take_subset _ _
  obtain ⟨htwins, hanswers⟩ := twins_run env env' before made hmade (hconsistent.subset hsub)
  exact ⟨htwins.agree.claims.claim_set, htwins.agree.last_seq, hanswers⟩

/-- The bans of `sample_bans`, delivered twice and pruned in between. -/
theorem history_is_no_input_sample :
    let actions : List Action := [.call sample_bans, .prune 9999999, .call { sample_bans with now := 7 }]
    let db := run sample_env DB.initial [.call sample_bans, .call sample_bans]
    let db' := run (sample_env.with_history 1 0 0) DB.initial actions
    (∀ c, claim_set db c = claim_set db' c) ∧ (∀ c, last_seq db c = last_seq db' c) ∧
      answers sample_env DB.initial [.call sample_bans, .call sample_bans] =
        answers (sample_env.with_history 1 0 0) DB.initial actions := by
  have hconsistent : Consistent ([sample_bans, sample_bans].map Call.posting) := by
    refine ⟨by decide +kernel, ?_⟩
    intro p hp p' _ _ snapshot_id seq claims seq' claims' hrequest
    simp only [List.map_cons, List.map_nil, List.mem_cons, List.not_mem_nil, or_false, or_self] at hp
    rw [hp] at hrequest
    cases hrequest
  exact history_is_no_input sample_env 1 0 0 [sample_bans, sample_bans] _ rfl hconsistent
    [.call sample_bans, .prune 9999999, .call { sample_bans with now := 7 }] (List.prefix_refl _)

end F2bguard.Store
