/-
The receiver as a copy of the sender's log.

The log is the list of all payloads a sender has issued. A receiver is in step with it
(`InStep`) when its claims are those of the payloads up to its `last_seq` and its histories
hold only such payloads. When the next payload of the log, or any earlier one, is given to
the receiver, only a limit can refuse it, and the receiver stays in step
(`perform_payload`): an earlier payload changes nothing and the next one is applied.
-/
import F2bguard.Admission
import F2bguard.SenderRuns

set_option autoImplicit false

namespace F2bguard.Sender

open F2bguard.PyText F2bguard.PyJson F2bguard.Claims F2bguard.Tables F2bguard.Lifecycle

/-! ## Logs

A log is a list of payloads numbered from one. What the receiver can be told of it is a prefix,
`upto`, whatever came twice or late. -/

/-- What a payload changes at the receiver: one claim, or all of them. -/
def Payload.changes (p : Payload) : List (Change Store.ClaimKey Store.ClaimValue) :=
  p.store_request.changes

/-- The identities a payload names, each with what it stands for. -/
def Payload.bindings : Payload → List (Text × Text × Text)
  | .event p => [(p.ban_id, p.jail, p.ip)]
  | .snapshot p => p.claims.map (fun c => (c.ban_id, c.pair))

/-- The payloads up to a number. -/
def upto (log : List Payload) (n : ℕ) : List Payload := log.filter (fun p => p.seq ≤ n)

/-- A log in which numbers, ids and identities mean one thing each. That is what a sender's log is
as long as the UUIDs it draws are new. -/
structure Consistent (log : List Payload) : Prop where
  valid : ∀ p ∈ log, p.Valid
  seqs : log.map Payload.seq = List.range' 1 log.length
  ids : (log.map Payload.id).Nodup
  bindings : ∀ p ∈ log, ∀ q ∈ log, ∀ b x y, (b, x) ∈ p.bindings → (b, y) ∈ q.bindings → x = y

theorem upto_zero {log : List Payload} (h : ∀ p ∈ log, 0 < p.seq) : upto log 0 = [] := by
  rw [upto, List.filter_eq_nil_iff]
  intro p hp
  have := h p hp
  simpa using this.ne'

/-- The next payload comes last. The log is sorted by number, so the induction goes along it
until the number is reached. -/
theorem upto_succ {log : List Payload} {p : Payload} {n : ℕ}
    (hsorted : log.Pairwise (fun p q => p.seq < q.seq)) (hp : p ∈ log) (hseq : p.seq = n + 1) :
    upto log (n + 1) = upto log n ++ [p] := by
  induction log with
  | nil => cases hp
  | cons q log ih =>
    rw [List.pairwise_cons] at hsorted
    rcases List.mem_cons.mp hp with rfl | hmem
    · have hlater : ∀ m, m ≤ n + 1 → upto log m = [] := by
        intro m hm
        rw [upto, List.filter_eq_nil_iff]
        intro x hx
        have := hsorted.1 x hx
        rw [decide_eq_true_eq]
        omega
      rw [upto, upto, List.filter_cons_of_pos (by simp [hseq]),
        List.filter_cons_of_neg (by simp [hseq])]
      change p :: upto log (n + 1) = upto log n ++ [p]
      rw [hlater (n + 1) le_rfl, hlater n (Nat.le_succ n)]
      rfl
    · have hlt := hsorted.1 p hmem
      have hle : q.seq ≤ n := by omega
      rw [upto, upto, List.filter_cons_of_pos (by simp; omega),
        List.filter_cons_of_pos (by simpa using hle)]
      change q :: upto log (n + 1) = q :: upto log n ++ [p]
      rw [ih hsorted.2 hmem]
      rfl

/-- A payload with a higher number does not matter. -/
theorem upto_append_of_lt {log : List Payload} {p : Payload} {n : ℕ} (h : n < p.seq) :
    upto (log ++ [p]) n = upto log n := by
  rw [upto, List.filter_append, List.filter_cons_of_neg (by simpa using h), List.filter_nil,
    List.append_nil, upto]

theorem Consistent.sorted {log : List Payload} (h : Consistent log) :
    log.Pairwise (fun p q => p.seq < q.seq) := by
  have hrange : (log.map Payload.seq).Pairwise (· < ·) := by
    rw [h.seqs]
    exact List.pairwise_lt_range'
  exact List.pairwise_map.mp hrange

theorem Consistent.eq_of_id {log : List Payload} (h : Consistent log) {p q : Payload} (hp : p ∈ log)
    (hq : q ∈ log) (hid : p.id = q.id) : p = q :=
  List.inj_on_of_nodup_map h.ids hp hq hid

theorem Consistent.seq_pos {log : List Payload} (h : Consistent log) {p : Payload} (hp : p ∈ log) :
    0 < p.seq ∧ p.seq ≤ log.length := by
  have hmem : p.seq ∈ log.map Payload.seq := List.mem_map_of_mem hp
  rw [h.seqs, List.mem_range'_1] at hmem
  omega

/-- What a payload puts under an identity is what the identity stands for. -/
theorem bindings_of_gives {p : Payload} {change : Change Store.ClaimKey Store.ClaimValue}
    (hchange : change ∈ p.changes) {jail ban_id : Text} {v : Store.ClaimValue}
    (h : change.Gives (jail, ban_id) v) : (ban_id, jail, v.ip) ∈ p.bindings := by
  cases p with
  | event p =>
    cases List.mem_singleton.mp hchange
    have hop : p.event.op = p.op := rfl
    rw [Store.Event.change, hop] at h
    cases hp : p.op with
    | ban =>
      rw [hp] at h
      obtain ⟨hkey, rfl⟩ := h
      cases hkey
      exact List.mem_singleton.mpr rfl
    | unban =>
      rw [hp] at h
      exact h.elim
  | snapshot p =>
    cases List.mem_singleton.mp hchange
    have h' : ((jail, ban_id), v) ∈ (p.claims.map SnapshotClaim.claim).map Store.Claim.entry := h
    rw [List.map_map] at h'
    obtain ⟨c, hc, hentry⟩ := List.mem_map.mp h'
    cases hentry
    exact List.mem_map.mpr ⟨c, hc, rfl⟩

/-! ## In step

The relation between the log and the store of the receiver. It says nothing about the sender's
tables: the log is all the receiver ever learns about. -/

/-- A row of the event history belongs to a payload of the log that was applied. -/
def EventKnown (env : Store.Env) (log : List Payload) (n : ℕ) (r : Store.EventRow) : Prop :=
  ∃ p : EventPayload, .event p ∈ log ∧ p.seq ≤ n ∧ r.event_id = p.event_id ∧ r.seq = p.seq ∧
    r.payload_hash = Store.payload_hash env p.event.wire

def SnapshotKnown (env : Store.Env) (log : List Payload) (n : ℕ) (r : Store.SnapshotRow) : Prop :=
  ∃ p : SnapshotPayload, .snapshot p ∈ log ∧ p.seq ≤ n ∧ r.snapshot_id = p.snapshot_id ∧
    r.seq = p.seq ∧ r.payload_hash = Store.payload_hash env
      (Store.snapshot_payload p.snapshot_id p.seq (p.claims.map SnapshotClaim.claim))

/-- The receiver has applied the payloads up to its `last_seq`, and nothing else. Rows of the
histories may have been pruned, so what is asked of them is only that they are known. -/
structure InStep (env : Store.Env) (client_id : Text) (log : List Payload) (db : Store.DB) : Prop where
  last : Store.last_seq db client_id ≤ log.length
  claims : Store.claim_set db client_id =
    applyAll (fun _ => none) ((upto log (Store.last_seq db client_id)).flatMap Payload.changes)
  events : ∀ r ∈ db.events.rows, r.client_id = client_id →
    EventKnown env log (Store.last_seq db client_id) r
  snapshots : ∀ r ∈ db.snapshots.rows, r.client_id = client_id →
    SnapshotKnown env log (Store.last_seq db client_id) r

section InStep

variable {env : Store.Env} {client_id : Text} {log : List Payload} {db : Store.DB}

theorem InStep.initial (hlog : ∀ p ∈ log, 0 < p.seq) :
    InStep env client_id log Store.DB.initial := by
  refine ⟨Nat.zero_le _, ?_, fun r hr => (by cases hr), fun r hr => (by cases hr)⟩
  have hzero : Store.last_seq Store.DB.initial client_id = 0 := rfl
  rw [hzero, upto_zero hlog]
  rfl

theorem InStep.historyBelow (h : InStep env client_id log db) : Store.HistoryBelow db client_id := by
  refine ⟨fun r hr hclient => ?_, fun r hr hclient => ?_⟩
  · obtain ⟨p, -, hle, -, hseq, -⟩ := h.events r hr hclient
    exact hseq.trans_le hle
  · obtain ⟨p, -, hle, -, hseq, -⟩ := h.snapshots r hr hclient
    exact hseq.trans_le hle

/-- What is stored under an identity of the log is what the log says of it. -/
theorem InStep.claim_ip (hlog : Consistent log) (h : InStep env client_id log db) {p : Payload}
    (hp : p ∈ log) {jail ban_id ip : Text} (hbinding : (ban_id, jail, ip) ∈ p.bindings)
    {ip' : Text} (hip : Store.claim_ip db client_id jail ban_id = some ip') : ip' = ip := by
  rw [Store.claim_ip_eq, h.claims] at hip
  obtain ⟨v, hv, rfl⟩ := Option.map_eq_some_iff.mp hip
  rcases applyAll_eq_some hv with hnone | ⟨change, hchange, hgives⟩
  · cases hnone
  · obtain ⟨q, hq, hchange⟩ := List.mem_flatMap.mp hchange
    have hq' : q ∈ log := (List.mem_filter.mp hq).1
    have hpair := hlog.bindings q hq' p hp ban_id _ _ (bindings_of_gives hchange hgives) hbinding
    exact (Prod.mk.inj hpair).2

theorem InStep.event_clean (hlog : Consistent log) (h : InStep env client_id log db)
    {p : EventPayload} (hp : .event p ∈ log) : Store.EventClean env db client_id p.event := by
  refine ⟨fun r hr hid => ?_, fun ip hip => ?_⟩
  · obtain ⟨q, hq, -, hqid, hseq, hhash⟩ := h.events r hr (congrArg Prod.fst hid)
    have hsame : q.event_id = p.event_id := hqid.symm.trans (congrArg Prod.snd hid)
    cases hlog.eq_of_id hq hp hsame
    exact ⟨hseq, hhash⟩
  · exact h.claim_ip hlog hp (List.mem_singleton.mpr rfl) hip

theorem InStep.snapshot_clean (hlog : Consistent log) (h : InStep env client_id log db)
    {p : SnapshotPayload} (hp : .snapshot p ∈ log) :
    Store.SnapshotClean env db client_id p.snapshot_id p.seq (p.claims.map SnapshotClaim.claim) := by
  refine ⟨fun r hr hid => ?_, fun c hc ip hip => ?_, ?_⟩
  · obtain ⟨q, hq, -, hqid, hseq, hhash⟩ := h.snapshots r hr (congrArg Prod.fst hid)
    have hsame : q.snapshot_id = p.snapshot_id := hqid.symm.trans (congrArg Prod.snd hid)
    cases hlog.eq_of_id hq hp hsame
    exact ⟨hseq, hhash⟩
  · obtain ⟨c', hc', rfl⟩ := List.mem_map.mp hc
    exact h.claim_ip hlog hp (List.mem_map.mpr ⟨c', hc', rfl⟩) hip
  · have hvalid : p.Valid := hlog.valid _ hp
    rw [claim_keys]
    exact hvalid.keys

/-- The call a payload becomes at the receiver. -/
def Payload.call (p : Payload) (client_id : Text) (limit : ℕ) (now : ℚ) : Store.Call :=
  ⟨client_id, p.store_request, limit, now⟩

theorem Payload.seqs_call (p : Payload) (client_id : Text) (limit : ℕ) (now : ℚ) :
    (p.call client_id limit now).request.seqs = [p.seq] := by
  cases p <;> rfl

theorem Payload.highest_store_request (p : Payload) : p.store_request.highest = p.seq := by
  cases p <;> rfl

/-- Only a limit refuses a payload of the log. -/
theorem InStep.admitted (hlog : Consistent log) (h : InStep env client_id log db) {p : Payload}
    (hp : p ∈ log) {limit : ℕ} {now : ℚ} {err : Store.StoreError}
    (herr : ((p.call client_id limit now).perform env db).1 = .error err) : err.IsLimit := by
  cases p with
  | event p =>
    exact Store.event_admitted env db client_id p.event limit now h.historyBelow
      (h.event_clean hlog hp) herr
  | snapshot p =>
    exact Store.snapshot_admitted env db client_id p.snapshot_id p.seq _ limit now h.historyBelow
      (h.snapshot_clean hlog hp) herr

theorem EventKnown.mono {n m : ℕ} {r : Store.EventRow} (h : EventKnown env log n r) (hle : n ≤ m) :
    EventKnown env log m r := by
  obtain ⟨p, hp, hn, hrest⟩ := h
  exact ⟨p, hp, hn.trans hle, hrest⟩

theorem SnapshotKnown.mono {n m : ℕ} {r : Store.SnapshotRow} (h : SnapshotKnown env log n r)
    (hle : n ≤ m) : SnapshotKnown env log m r := by
  obtain ⟨p, hp, hn, hrest⟩ := h
  exact ⟨p, hp, hn.trans hle, hrest⟩

/-- The rows a payload adds to the histories are its own. -/
theorem known_event_rows {p : Payload} (hp : p ∈ log) (limit : ℕ) (now : ℚ) {r : Store.EventRow}
    (hr : r ∈ (p.call client_id limit now).event_rows env) : EventKnown env log p.seq r := by
  cases p with
  | event p =>
    cases List.mem_singleton.mp hr
    exact ⟨p, hp, le_rfl, rfl, rfl, rfl⟩
  | snapshot p => cases hr

theorem known_snapshot_rows {p : Payload} (hp : p ∈ log) (limit : ℕ) (now : ℚ)
    {r : Store.SnapshotRow} (hr : r ∈ (p.call client_id limit now).snapshot_rows env) :
    SnapshotKnown env log p.seq r := by
  cases p with
  | event p => cases hr
  | snapshot p =>
    cases List.mem_singleton.mp hr
    exact ⟨p, hp, le_rfl, rfl, rfl, rfl⟩

/-- The next payload is applied. -/
theorem InStep.after_fresh (hlog : Consistent log) (h : InStep env client_id log db) {p : Payload}
    (hp : p ∈ log) (hnext : p.seq ≤ Store.last_seq db client_id + 1) {limit : ℕ} {now : ℚ}
    {db' : Store.DB} (hfresh : Store.Fresh env db (p.call client_id limit now) db') :
    Store.last_seq db' client_id = p.seq ∧ InStep env client_id log db' := by
  have hlast : Store.last_seq db' client_id = p.seq := by
    rw [hfresh.last_seq client_id, if_pos (show client_id = (p.call client_id limit now).client_id
      from rfl)]
    exact p.highest_store_request
  -- above the stored number and not beyond the next one: it is the next one
  have hnew : Store.last_seq db client_id < p.seq := by
    have hnewer := hfresh.newer
    rw [p.seqs_call, List.forall_mem_singleton] at hnewer
    exact hnewer
  have hseq : p.seq = Store.last_seq db client_id + 1 := by omega
  refine ⟨hlast, ?_, ?_, ?_, ?_⟩
  · rw [hlast]
    exact (hlog.seq_pos hp).2
  · have hclaims := hfresh.claims client_id
    rw [if_pos (show client_id = (p.call client_id limit now).client_id from rfl)] at hclaims
    rw [hlast, hseq, upto_succ hlog.sorted hp hseq, List.flatMap_append, applyAll_append, ← h.claims,
      hclaims, List.flatMap_singleton]
    rfl
  · intro r hr hclient
    rw [hlast]
    rcases List.mem_append.mp (hfresh.events.subset hr) with hr | hr
    · exact (h.events r hr hclient).mono hnew.le
    · exact known_event_rows hp limit now hr
  · intro r hr hclient
    rw [hlast]
    rcases List.mem_append.mp (hfresh.snapshots.subset hr) with hr | hr
    · exact (h.snapshots r hr hclient).mono hnew.le
    · exact known_snapshot_rows hp limit now hr

theorem InStep.ensure_client (h : InStep env client_id log db) (c : Text) (now : ℚ) :
    InStep env client_id log (Store.ensure_client db c now) := by
  obtain ⟨h1, h2, h3, h4⟩ := h
  refine ⟨?_, ?_, ?_, ?_⟩
  · rwa [Store.last_seq_ensure_client]
  · rwa [Store.claim_set_ensure_client, Store.last_seq_ensure_client]
  · rwa [Store.ensure_client_events, Store.last_seq_ensure_client]
  · rwa [Store.ensure_client_snapshots, Store.last_seq_ensure_client]

/-- A payload that is not beyond the next one is refused by a limit or known afterwards, and the
receiver stays in step. A limit that refuses it leaves the receiver where it was, and the payload
is then the next one still. -/
theorem InStep.perform_payload (hlog : Consistent log) (h : InStep env client_id log db)
    {p : Payload} (hp : p ∈ log) (hnext : p.seq ≤ Store.last_seq db client_id + 1) {limit : ℕ}
    {now : ℚ} {result : Except Store.StoreError Store.ApplyResult} {db' : Store.DB}
    (hperform : (p.call client_id limit now).perform env db = (result, db')) :
    InStep env client_id log db' ∧
      ((∃ err, result = .error err ∧ err.IsLimit ∧ db' = db) ∨
        ∃ r, result = .ok r ∧ r.accepted = true ∧ p.seq ≤ Store.last_seq db' client_id ∧
          Store.last_seq db client_id ≤ Store.last_seq db' client_id) := by
  cases Store.perform_outcome hperform with
  | refused e =>
    refine ⟨h, Or.inl ⟨e, rfl, @InStep.admitted _ _ _ _ hlog h _ hp limit now _ ?_, rfl⟩⟩
    rw [hperform]
  | known duplicate hne hold hdb =>
    -- an old payload was applied before
    have hle : p.seq ≤ Store.last_seq db client_id := by
      rw [p.seqs_call, List.forall_mem_singleton] at hold
      exact hold
    rw [hdb]
    refine ⟨h.ensure_client _ _, Or.inr ⟨_, rfl, rfl, ?_, ?_⟩⟩
    · rwa [Store.last_seq_ensure_client]
    · rw [Store.last_seq_ensure_client]
  | fresh hfresh =>
    obtain ⟨hlast, hstep⟩ := h.after_fresh hlog hp hnext hfresh
    refine ⟨hstep, Or.inr ⟨_, rfl, rfl, hlast.ge, ?_⟩⟩
    have hnewer := hfresh.newer
    rw [p.seqs_call, List.forall_mem_singleton] at hnewer
    rw [hlast]
    exact hnewer.le

/-! ## What else happens

Three things change the store or the log besides the payloads: the log grows, histories are
pruned, and other clients make calls. -/

/-- The log grows behind what the receiver has applied. -/
theorem InStep.append (h : InStep env client_id log db) {p : Payload} (hp : log.length < p.seq) :
    InStep env client_id (log ++ [p]) db := by
  refine ⟨?_, ?_, ?_, ?_⟩
  · rw [List.length_append]
    exact h.last.trans (Nat.le_add_right _ _)
  · rw [upto_append_of_lt (h.last.trans_lt hp)]
    exact h.claims
  · intro r hr hclient
    obtain ⟨q, hq, hrest⟩ := h.events r hr hclient
    exact ⟨q, List.mem_append_left _ hq, hrest⟩
  · intro r hr hclient
    obtain ⟨q, hq, hrest⟩ := h.snapshots r hr hclient
    exact ⟨q, List.mem_append_left _ hq, hrest⟩

theorem InStep.prune_history (h : InStep env client_id log db) (now : ℚ) :
    InStep env client_id log (Store.prune_history env db now).2 :=
  ⟨h.last, h.claims, fun r hr hclient => h.events r (Table.mem_delete.mp hr).1 hclient,
    fun r hr hclient => h.snapshots r (Table.mem_delete.mp hr).1 hclient⟩

/-- Calls of other clients do not matter. -/
theorem InStep.other (h : InStep env client_id log db) {call : Store.Call}
    (hother : call.client_id ≠ client_id) {result : Except Store.StoreError Store.ApplyResult}
    {db' : Store.DB} (hperform : call.perform env db = (result, db')) :
    Store.last_seq db' client_id = Store.last_seq db client_id ∧ InStep env client_id log db' := by
  cases Store.perform_outcome hperform with
  | refused e => exact ⟨rfl, h⟩
  | known duplicate hne hold hdb =>
    rw [hdb]
    exact ⟨Store.last_seq_ensure_client _ _ _ _, h.ensure_client _ _⟩
  | fresh hfresh =>
    -- the rows, the claims and the number of a client move only with its own calls
    have hlast : Store.last_seq db' client_id = Store.last_seq db client_id := by
      rw [hfresh.last_seq client_id, if_neg (fun heq => hother heq.symm)]
    refine ⟨hlast, ?_, ?_, ?_, ?_⟩
    · rw [hlast]
      exact h.last
    · rw [hlast, ← h.claims, hfresh.claims client_id, if_neg (fun heq => hother heq.symm)]
    · intro r hr hclient
      rw [hlast]
      rcases List.mem_append.mp (hfresh.events.subset hr) with hr | hr
      · exact h.events r hr hclient
      · exfalso
        unfold Store.Call.event_rows at hr
        split at hr
        · obtain ⟨e, -, rfl⟩ := List.mem_map.mp hr
          exact hother hclient
        · cases hr
    · intro r hr hclient
      rw [hlast]
      rcases List.mem_append.mp (hfresh.snapshots.subset hr) with hr | hr
      · exact h.snapshots r hr hclient
      · exfalso
        unfold Store.Call.snapshot_rows at hr
        split at hr
        · cases hr
        · rw [List.mem_singleton.mp hr] at hclient
          exact hother hclient

end InStep

end F2bguard.Sender
