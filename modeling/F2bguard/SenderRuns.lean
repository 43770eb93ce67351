/-
The sender as a system: hooks, snapshot commands and the worker, interleaved.

Hooks call `enqueue`, which is one transaction. A call of `enqueue_snapshot` reads claims
while it goes through its argument and then runs its transaction, so other calls may come
in between; the worker reads a row, is busy with the network for a while and then marks
the row. Any of them may be killed, and starting a process again prunes delivered rows.

`Sound` is what holds in every state of every run: it relates the outbox to the payloads
that were issued so far and to the rows that were marked delivered (`sound_run`).
-/
import F2bguard.SenderSteps
import F2bguard.Runs

set_option autoImplicit false

namespace F2bguard.Sender

open F2bguard.PyText F2bguard.PyJson F2bguard.Ipaddress F2bguard.Uuid F2bguard.Claims
open F2bguard.Tables F2bguard.Runs

/-! ## The system

Steps are as large as what SQLite makes atomic, and no larger: a hook is one step because it is
one transaction, a snapshot command is as many steps as it has turns and a last one. Several
commands may be on their way at once, and nothing says that a command ever gets on. -/

/-- A call of `enqueue_snapshot` before its transaction. It holds what the command has in memory,
so it is lost when the command is killed. -/
structure SnapshotCall where
  /-- the argument -/
  claims : List EnumeratedClaim
  expected_seq : Option ℕ
  /-- the part of the argument that the loop has not reached -/
  rest : List EnumeratedClaim
  normalized : List SnapshotClaim

/-- The database, the commands on their way and the worker. -/
structure State where
  db : DB
  calls : List SnapshotCall
  /-- the row the worker is sending -/
  sending : Option OutboxRow

def State.initial : State := ⟨DB.initial, [], none⟩

/-- What happens in one step, with what the call returns. The texts of `uuid4` are part of the
label; any text of the right form can be drawn, also one that is there already. -/
inductive Label
  | enqueue (op jail ip : Text) (now : ℚ) (ban_uuid event_uuid : Uuid4)
      (result : Except SenderError (Option EventPayload))
  | begin_snapshot (claims : List EnumeratedClaim) (expected_seq : Option ℕ)
  | normalize (ban_uuid : Uuid4)
  | commit (call : SnapshotCall) (now : ℚ) (snapshot_uuid : Uuid4)
      (result : Except SenderError SnapshotPayload)
  | abandon
  | prune_delivered
  | next_due (now : ℚ)
  | finish (row : OutboxRow) (now : ℚ) (delivered : Bool)
  | crash

/-- The steps. A step of a snapshot command or of the worker uses what it read earlier, while the
database may have changed since. -/
inductive Step (env : Env) : State → Label → State → Prop
  /-- a hook -/
  | enqueue {s : State} {op jail ip : Text} {now : ℚ} {ban_uuid event_uuid : Uuid4}
      {result : Except SenderError (Option EventPayload)} {db : DB}
      (h : enqueue env s.db op jail ip now ban_uuid event_uuid = (result, db)) :
      Step env s (.enqueue op jail ip now ban_uuid event_uuid result) { s with db }
  | begin_snapshot (s : State) (claims : List EnumeratedClaim) (expected_seq : Option ℕ) :
      Step env s (.begin_snapshot claims expected_seq)
        { s with calls := ⟨claims, expected_seq, claims, []⟩ :: s.calls }
  | normalize {s : State} {before after : List SnapshotCall} {call : SnapshotCall}
      {claim : EnumeratedClaim} {rest : List EnumeratedClaim} {normalized : List SnapshotClaim}
      {ban_uuid : Uuid4} (hcalls : s.calls = before ++ call :: after)
      (hrest : call.rest = claim :: rest)
      (h : normalize_claim s.db call.normalized claim ban_uuid = .ok normalized) :
      Step env s (.normalize ban_uuid)
        { s with calls := before ++ { call with rest, normalized } :: after }
  | commit {s : State} {before after : List SnapshotCall} {call : SnapshotCall} {now : ℚ}
      {snapshot_uuid : Uuid4} {result : Except SenderError SnapshotPayload} {db : DB}
      (hcalls : s.calls = before ++ call :: after) (hrest : call.rest = [])
      (h : commit_snapshot env s.db call.normalized call.expected_seq now snapshot_uuid
        = (result, db)) :
      Step env s (.commit call now snapshot_uuid result) { s with db, calls := before ++ after }
  /-- the loop raised, or the command was killed -/
  | abandon {s : State} {before after : List SnapshotCall} {call : SnapshotCall}
      (hcalls : s.calls = before ++ call :: after) :
      Step env s .abandon { s with calls := before ++ after }
  /-- a process was started -/
  | prune_delivered (s : State) :
      Step env s .prune_delivered { s with db := prune_delivered s.db }
  | next_due {s : State} {now : ℚ} {row : OutboxRow} (hidle : s.sending = none)
      (h : next_due s.db now = some row) :
      Step env s (.next_due now) { s with sending := some row }
  | finish {s : State} {row : OutboxRow} {now : ℚ} {delivered : Bool}
      (hsending : s.sending = some row) :
      Step env s (.finish row now delivered)
        { s with db := finish_attempt env s.db row now delivered, sending := none }
  /-- the worker was killed -/
  | crash (s : State) : Step env s .crash { s with sending := none }

/-- The payload a step writes to the outbox. -/
def Label.issued : Label → Option Payload
  | .enqueue _ _ _ _ _ _ (.ok (some p)) => some (.event p)
  | .commit _ _ _ (.ok p) => some (.snapshot p)
  | _ => none

/-- The payloads of a run, in the order of their rows. -/
def issued (labels : List Label) : List Payload := labels.filterMap Label.issued

/-- The number of a row that a step marks delivered. The transport was told so, and the worker had
not been killed before it could write it down. -/
def Label.delivered : Label → Option ℕ
  | .finish row _ true => some row.seq
  | _ => none

def delivered (labels : List Label) : List ℕ := labels.filterMap Label.delivered

theorem issued_snoc (labels : List Label) (a : Label) :
    issued (labels ++ [a]) = issued labels ++ a.issued.toList := by
  rw [issued, List.filterMap_append, issued]
  cases h : a.issued <;> simp [h]

theorem delivered_snoc (labels : List Label) (a : Label) :
    delivered (labels ++ [a]) = delivered labels ++ a.delivered.toList := by
  rw [delivered, List.filterMap_append, delivered]
  cases h : a.delivered <;> simp [h]

/-- The states the sender can reach. -/
def Reachable (env : Env) (s : State) : Prop := ∃ labels, Run (Step env) State.initial labels s

/-! ## The invariant

The invariant speaks about the log of all payloads issued, which the database does not keep: rows
are pruned once they are marked. That a row that is gone was marked is the part that says that
nothing is lost. -/

/-- What the loop has made of the part of the argument it has gone through: one claim for each
entry, in the same order, valid and without repetition of a pair. -/
structure SnapshotCall.Sound (call : SnapshotCall) : Prop where
  progress : ∃ read, call.claims = read ++ call.rest ∧
    List.Forall₂ (fun (claim : EnumeratedClaim) (c : SnapshotClaim) =>
      c.jail = claim.jail ∧ canonical_ip claim.ip = .ok c.ip) read call.normalized
  valid : ∀ c ∈ call.normalized, c.Valid
  pairs : (call.normalized.map SnapshotClaim.pair).Nodup

/-- The state of a sender that has issued the payloads of `log` and has marked the numbers in
`done` as delivered. A row that is being sent may have been pruned meanwhile; what is known of it
is what was known when it was read, and that all lower numbers are marked. -/
structure Sound (env : Env) (log : List Payload) (done : List ℕ) (s : State) : Prop where
  claims : ClaimsValid s.db
  calls : ∀ call ∈ s.calls, call.Sound
  /-- the numbers are allocated one by one -/
  seqs : log.map Payload.seq = List.range' 1 s.db.seq
  valid : ∀ p ∈ log, p.Valid
  outbox : ∀ r ∈ s.db.outbox.rows, ∃ p ∈ log, Holds env r p
  ids : ∀ r ∈ s.db.outbox.rows, r.id < s.db.next_id
  /-- a payload stays in the outbox until it is marked -/
  kept : ∀ p ∈ log, p.seq ∈ done ∨ ∃ r ∈ pending s.db, Holds env r p
  marked : ∀ r ∈ s.db.outbox.rows, r.delivered_at.isSome → r.seq ∈ done
  /-- what is being sent is a row whose predecessors are all marked -/
  sending : ∀ r, s.sending = some r →
    (∃ p ∈ log, Holds env r p) ∧ r.id < s.db.next_id ∧
      (∀ r' ∈ s.db.outbox.rows, r'.id = r.id → r'.seq = r.seq) ∧
      ∀ p ∈ log, p.seq < r.seq → p.seq ∈ done

theorem mem_pending {db : DB} {r : OutboxRow} :
    r ∈ pending db ↔ r ∈ db.outbox.rows ∧ r.delivered_at = none := by
  simp [pending]

theorem claimsValid_iff {db : DB} :
    ClaimsValid db ↔ ∀ pair r, claim_of db pair = some r → r.Valid := by
  constructor
  · intro h pair r hr
    exact h r (claim_of_eq_some.mp hr).1
  · intro h r hr
    exact h r.key r (claim_of_eq_some.mpr ⟨hr, rfl⟩)

theorem ClaimsValid.of_recorded {env : Env} {db db' : DB} {op : Op} {jail ip : Text} {now : ℚ}
    {ban_uuid event_uuid : Uuid4} {p : EventPayload} (hvalid : ClaimsValid db)
    (hjail : ValidJail jail) (hip : CanonicalIP ip) (hban : Canonical p.ban_id)
    (h : Recorded env db op jail ip now ban_uuid event_uuid p db') : ClaimsValid db' := by
  rw [claimsValid_iff] at hvalid ⊢
  intro pair r hr
  rw [h.claims pair] at hr
  split at hr
  · cases hr
    exact ⟨hjail, hban, hip⟩
  · exact hvalid pair r hr

theorem Recorded.canonical {env : Env} {db db' : DB} {op : Op} {jail ip : Text} {now : ℚ}
    {ban_uuid event_uuid : Uuid4} {p : EventPayload} (hvalid : ClaimsValid db)
    (h : Recorded env db op jail ip now ban_uuid event_uuid p db') : Canonical p.ban_id := by
  have hban := h.ban_id
  cases op with
  | ban =>
    rw [hban.2]
    exact ban_uuid.is_canonical
  | unban => exact (hvalid _ (claim_of_eq_some.mp hban).1).ban_id

theorem Recorded.valid {env : Env} {db db' : DB} {op : Op} {jail ip : Text} {now : ℚ}
    {ban_uuid event_uuid : Uuid4} {p : EventPayload} (hvalid : ClaimsValid db)
    (hjail : ValidJail jail) (hip : CanonicalIP ip)
    (h : Recorded env db op jail ip now ban_uuid event_uuid p db') : p.Valid := by
  have hcanonical := h.canonical hvalid
  have hseq_le : p.seq ≤ max_seq := h.inserted.seq_le
  rw [h.payload] at hseq_le
  rw [h.payload]
  exact ⟨event_uuid.is_canonical, Nat.succ_pos _, hseq_le, hjail, hcanonical, hip⟩

/-- The claims of a snapshot are valid where the claims of its loop are. -/
theorem Committed.claims_valid {env : Env} {db db' : DB} {normalized : List SnapshotClaim}
    {expected_seq : Option ℕ} {now : ℚ} {snapshot_uuid : Uuid4} {p : SnapshotPayload}
    (h : Committed env db normalized expected_seq now snapshot_uuid p db')
    (hvalid : ClaimsValid db) (hnormalized : ∀ c ∈ normalized, c.Valid) :
    ∀ c ∈ p.claims, c.Valid := by
  intro c hc
  obtain ⟨c', hc', rfl⟩ := List.mem_map.mp (h.claims.mem_iff.mp hc)
  obtain ⟨hjail, hban, hip⟩ := hnormalized c' hc'
  rw [reuse_ban_id_eq]
  refine ⟨hjail, ?_, hip⟩
  cases hactive : active_claim db c'.pair with
  | none => exact hban
  | some r => exact (active_claim_valid hvalid hactive).ban_id

/-- `UNIQUE(jail, ban_id)` makes the identities of a snapshot distinct. -/
theorem Committed.keys_nodup {env : Env} {db db' : DB} {normalized : List SnapshotClaim}
    {expected_seq : Option ℕ} {now : ℚ} {snapshot_uuid : Uuid4} {p : SnapshotPayload}
    (h : Committed env db normalized expected_seq now snapshot_uuid p db')
    (hpairs : (normalized.map SnapshotClaim.pair).Nodup) :
    (p.claims.map SnapshotClaim.key).Nodup := by
  have hnodup : p.claims.Nodup := List.Nodup.of_map _ (h.pairs.nodup_iff.mpr hpairs)
  refine List.Nodup.map_on (fun x hx y hy hkey => ?_) hnodup
  have hrx := (claim_of_eq_some.mp (h.activated x hx)).1
  have hry := (claim_of_eq_some.mp (h.activated y hy)).1
  have hrow := Table.eq_of_key claims_ban_unique hrx hry hkey
  obtain ⟨jail, ban_id, ip⟩ := x
  obtain ⟨jail', ban_id', ip'⟩ := y
  simp only [ClaimRow.mk.injEq] at hrow
  obtain ⟨rfl, rfl, rfl, -⟩ := hrow
  rfl

theorem Committed.valid {env : Env} {db db' : DB} {normalized : List SnapshotClaim}
    {expected_seq : Option ℕ} {now : ℚ} {snapshot_uuid : Uuid4} {p : SnapshotPayload}
    (h : Committed env db normalized expected_seq now snapshot_uuid p db')
    (hvalid : ClaimsValid db) (hnormalized : ∀ c ∈ normalized, c.Valid)
    (hpairs : (normalized.map SnapshotClaim.pair).Nodup) : p.Valid := by
  have hseq : p.seq = db.seq + 1 := h.inserted.seq
  have hseq_le : p.seq ≤ max_seq := h.inserted.seq_le
  refine ⟨?_, by omega, hseq_le, h.claims_valid hvalid hnormalized, h.keys_nodup hpairs⟩
  rw [h.snapshot_id]
  exact snapshot_uuid.is_canonical

theorem Committed.claimsValid {env : Env} {db db' : DB} {normalized : List SnapshotClaim}
    {expected_seq : Option ℕ} {now : ℚ} {snapshot_uuid : Uuid4} {p : SnapshotPayload}
    (h : Committed env db normalized expected_seq now snapshot_uuid p db')
    (hvalid : ClaimsValid db) (hnormalized : ∀ c ∈ normalized, c.Valid) : ClaimsValid db' := by
  have hclaims := h.claims_valid hvalid hnormalized
  rw [claimsValid_iff]
  intro pair r hr
  by_cases hmem : pair ∈ normalized.map SnapshotClaim.pair
  · rw [← h.pairs.mem_iff, List.mem_map] at hmem
    obtain ⟨c, hc, rfl⟩ := hmem
    rw [h.activated c hc] at hr
    cases hr
    exact ⟨(hclaims c hc).jail, (hclaims c hc).ban_id, (hclaims c hc).ip⟩
  · rw [h.others pair hmem] at hr
    obtain ⟨r', hr', rfl⟩ := Option.map_eq_some_iff.mp hr
    obtain ⟨hjail, hban, hip⟩ := hvalid r' (claim_of_eq_some.mp hr').1
    exact ⟨hjail, hban, hip⟩

/-! ## Steps

One lemma for each way the database changes: a payload is written, a row is marked, a row is put
off. The steps of a command before its transaction change only the list of commands. -/

/-- Writing a payload keeps the outbox part of the invariant. -/
theorem Sound.after_insert {env : Env} {log : List Payload} {done : List ℕ} {s : State} {p : Payload}
    {now : ℚ} {db : DB} {calls : List SnapshotCall} (h : Sound env log done s)
    (hins : Inserted env s.db p now db) (hvalid : p.Valid) (hclaims : ClaimsValid db)
    (hcalls : ∀ call ∈ calls, call.Sound) :
    Sound env (log ++ [p]) done { s with db, calls } := by
  have hrows := hins.outbox
  -- the new row waits behind the others
  have hpending : pending db = pending s.db ++ [payload_row env s.db p now] := by
    rw [pending, hrows, List.filter_append]
    rfl
  refine ⟨hclaims, hcalls, ?_, ?_, ?_, ?_, ?_, ?_, ?_⟩
  · -- the number of the payload follows the last one
    rw [List.map_append, h.seqs, List.map_singleton, hins.seq, hins.next_seq,
      List.range'_concat]
    simp [Nat.add_comm]
  · intro q hq
    rcases List.mem_append.mp hq with hq | hq
    · exact h.valid q hq
    · rwa [List.mem_singleton.mp hq]
  · intro r hr
    rw [hrows] at hr
    rcases List.mem_append.mp hr with hr | hr
    · obtain ⟨q, hq, hholds⟩ := h.outbox r hr
      exact ⟨q, List.mem_append_left _ hq, hholds⟩
    · rw [List.mem_singleton.mp hr]
      exact ⟨p, List.mem_append_right _ (List.mem_singleton.mpr rfl), holds_payload_row env s.db p now⟩
  · intro r hr
    rw [hrows] at hr
    rw [hins.next_id]
    rcases List.mem_append.mp hr with hr | hr
    · exact (h.ids r hr).trans (Nat.lt_succ_self _)
    · rw [List.mem_singleton.mp hr]
      exact Nat.lt_succ_self _
  · intro q hq
    rw [hpending]
    rcases List.mem_append.mp hq with hq | hq
    · rcases h.kept q hq with hdone | ⟨r, hr, hholds⟩
      · exact Or.inl hdone
      · exact Or.inr ⟨r, List.mem_append_left _ hr, hholds⟩
    · rw [List.mem_singleton.mp hq]
      exact Or.inr ⟨_, List.mem_append_right _ (List.mem_singleton.mpr rfl),
        holds_payload_row env s.db p now⟩
  · -- the new row is not delivered yet
    intro r hr hsome
    rw [hrows] at hr
    rcases List.mem_append.mp hr with hr | hr
    · exact h.marked r hr hsome
    · rw [List.mem_singleton.mp hr] at hsome
      cases hsome
  · intro r hr
    obtain ⟨⟨q, hq, hholds⟩, hid, hsame, hbefore⟩ := h.sending r hr
    refine ⟨⟨q, List.mem_append_left _ hq, hholds⟩, ?_, ?_, ?_⟩
    · rw [hins.next_id]
      exact hid.trans (Nat.lt_succ_self _)
    · intro r' hr' heq
      rw [hrows] at hr'
      rcases List.mem_append.mp hr' with hr' | hr'
      · exact hsame r' hr' heq
      · -- the new row has an id of its own
        rw [List.mem_singleton.mp hr'] at heq
        have hnew : s.db.next_id = r.id := heq
        omega
    · intro q' hq' hlt
      rcases List.mem_append.mp hq' with hq' | hq'
      · exact hbefore q' hq' hlt
      · -- the new number is above all others
        rw [List.mem_singleton.mp hq', hins.seq] at hlt
        have hmem : q.seq ∈ log.map Payload.seq := List.mem_map_of_mem hq
        rw [h.seqs, List.mem_range'_1] at hmem
        rw [hholds.seq] at hlt
        omega

/-- Snapshot calls come and go without touching the rest. -/
theorem Sound.with_calls {env : Env} {log : List Payload} {done : List ℕ} {s : State}
    {calls : List SnapshotCall} (h : Sound env log done s) (hcalls : ∀ call ∈ calls, call.Sound) :
    Sound env log done { s with calls } :=
  ⟨h.claims, hcalls, h.seqs, h.valid, h.outbox, h.ids, h.kept, h.marked, h.sending⟩

theorem SnapshotCall.Sound.normalize {db : DB} {call : SnapshotCall} {claim : EnumeratedClaim}
    {rest : List EnumeratedClaim} {normalized : List SnapshotClaim} {ban_uuid : Uuid4}
    (hcall : call.Sound) (hvalid : ClaimsValid db) (hrest : call.rest = claim :: rest)
    (h : normalize_claim db call.normalized claim ban_uuid = .ok normalized) :
    SnapshotCall.Sound { call with rest, normalized } := by
  obtain ⟨c, rfl, hc⟩ := normalize_claim_spec hvalid h
  obtain ⟨read, hread, hall⟩ := hcall.progress
  refine ⟨⟨read ++ [claim], ?_, ?_⟩, ?_, ?_⟩
  · dsimp only
    rw [hread, hrest, List.append_assoc]
    rfl
  · exact List.rel_append hall (List.Forall₂.cons ⟨hc.jail, hc.ip⟩ List.Forall₂.nil)
  · intro x hx
    rcases List.mem_append.mp hx with hx | hx
    · exact hcall.valid x hx
    · rw [List.mem_singleton.mp hx]
      exact hc.valid
  · dsimp only
    rw [List.map_append, List.nodup_append]
    refine ⟨hcall.pairs, List.nodup_singleton _, ?_⟩
    intro a ha b hb
    obtain ⟨x, hx, rfl⟩ := List.mem_map.mp ha
    rw [List.map_singleton, List.mem_singleton] at hb
    rw [hb]
    exact hc.new x hx

/-- The row that `next_due` returns is pending, and no pending row has a smaller number. -/
theorem next_due_spec {db : DB} {now : ℚ} {row : OutboxRow} (h : next_due db now = some row) :
    row ∈ pending db ∧ ∀ r ∈ pending db, row.seq ≤ r.seq := by
  unfold next_due head at h
  obtain ⟨hfind, -⟩ := Option.filter_eq_some_iff.mp h
  refine ⟨List.mem_of_find?_eq_some hfind, ?_⟩
  have := List.find?_some hfind
  simpa using this

theorem Holds.delivered {env : Env} {r : OutboxRow} {p : Payload} (h : Holds env r p) (now : ℚ) :
    Holds env (r.delivered now) p := ⟨h.seq, h.kind, h.event_id, h.payload⟩

theorem Holds.retried {env : Env} {r : OutboxRow} {p : Payload} (h : Holds env r p)
    (attempts : ℕ) (available_at : ℚ) : Holds env (r.retried attempts available_at) p :=
  ⟨h.seq, h.kind, h.event_id, h.payload⟩

/-- Marking a row delivered. -/
theorem Sound.after_delivered {env : Env} {log : List Payload} {done : List ℕ} {s : State}
    {row : OutboxRow} (h : Sound env log done s) (hsending : s.sending = some row) (now : ℚ) :
    Sound env log (done ++ [row.seq])
      { s with db := clear_last_error (mark_delivered s.db row.id now), sending := none } := by
  obtain ⟨-, -, hsame, -⟩ := h.sending row hsending
  -- each row is an earlier one, marked or not
  have hmem : ∀ r ∈ (mark_delivered s.db row.id now).outbox.rows, ∃ r' ∈ s.db.outbox.rows,
      r = if r'.id = row.id ∧ r'.delivered_at.isNone then r'.delivered now else r' := by
    intro r hr
    obtain ⟨r', hr', rfl⟩ := List.mem_map.mp hr
    exact ⟨r', hr', by simp only [decide_eq_true_eq]⟩
  refine ⟨h.claims, h.calls, h.seqs, h.valid, ?_, ?_, ?_, ?_, by simp⟩
  · intro r hr
    obtain ⟨r', hr', rfl⟩ := hmem r hr
    obtain ⟨p, hp, hholds⟩ := h.outbox r' hr'
    refine ⟨p, hp, ?_⟩
    split
    · exact hholds.delivered now
    · exact hholds
  · intro r hr
    obtain ⟨r', hr', rfl⟩ := hmem r hr
    have := h.ids r' hr'
    split <;> exact this
  · intro p hp
    rcases h.kept p hp with hdone | ⟨r, hr, hholds⟩
    · exact Or.inl (List.mem_append_left _ hdone)
    · by_cases hid : r.id = row.id
      · -- this is the row that is being marked
        left
        rw [← hholds.seq, hsame r (mem_pending.mp hr).1 hid]
        exact List.mem_append_right _ (List.mem_singleton.mpr rfl)
      · right
        refine ⟨r, mem_pending.mpr ⟨?_, (mem_pending.mp hr).2⟩, hholds⟩
        exact List.mem_map.mpr ⟨r, (mem_pending.mp hr).1, by simp [hid]⟩
  · intro r hr hsome
    obtain ⟨r', hr', rfl⟩ := hmem r hr
    split at hsome
    · rename_i hcond
      rw [if_pos hcond, OutboxRow.delivered, hsame r' hr' hcond.1]
      exact List.mem_append_right _ (List.mem_singleton.mpr rfl)
    · rename_i hcond
      rw [if_neg hcond]
      exact List.mem_append_left _ (h.marked r' hr' hsome)

/-- Putting a row off. -/
theorem Sound.after_retry {env : Env} {log : List Payload} {done : List ℕ} {s : State}
    (h : Sound env log done s) (row_id attempts : ℕ) (now delay : ℚ) (error_type : Text) :
    Sound env log done { s with
      db := set_last_error (mark_retry s.db row_id attempts now delay) error_type
      sending := none } := by
  -- each row is an earlier one, put off or not
  have hmem : ∀ r ∈ (mark_retry s.db row_id attempts now delay).outbox.rows,
      ∃ r' ∈ s.db.outbox.rows,
        r = if r'.id = row_id ∧ r'.delivered_at.isNone then r'.retried attempts (now + delay)
          else r' := by
    intro r hr
    obtain ⟨r', hr', rfl⟩ := List.mem_map.mp hr
    exact ⟨r', hr', by simp only [decide_eq_true_eq]⟩
  refine ⟨h.claims, h.calls, h.seqs, h.valid, ?_, ?_, ?_, ?_, by simp⟩
  · intro r hr
    obtain ⟨r', hr', rfl⟩ := hmem r hr
    obtain ⟨p, hp, hholds⟩ := h.outbox r' hr'
    refine ⟨p, hp, ?_⟩
    split
    · exact hholds.retried _ _
    · exact hholds
  · intro r hr
    obtain ⟨r', hr', rfl⟩ := hmem r hr
    have := h.ids r' hr'
    split <;> exact this
  · intro p hp
    rcases h.kept p hp with hdone | ⟨r, hr, hholds⟩
    · exact Or.inl hdone
    · right
      obtain ⟨hrow, hnone⟩ := mem_pending.mp hr
      by_cases hid : r.id = row_id
      · refine ⟨r.retried attempts (now + delay), mem_pending.mpr ⟨?_, hnone⟩,
          hholds.retried _ _⟩
        exact List.mem_map.mpr ⟨r, hrow, by simp [hid, hnone]⟩
      · refine ⟨r, mem_pending.mpr ⟨?_, hnone⟩, hholds⟩
        exact List.mem_map.mpr ⟨r, hrow, by simp [hid]⟩
  · intro r hr hsome
    obtain ⟨r', hr', rfl⟩ := hmem r hr
    split at hsome
    · rename_i hcond
      rw [if_pos hcond]
      exact h.marked r' hr' hsome
    · rename_i hcond
      rw [if_neg hcond]
      exact h.marked r' hr' hsome

theorem Sound.after_prune {env : Env} {log : List Payload} {done : List ℕ} {s : State}
    (h : Sound env log done s) :
    Sound env log done { s with db := prune_delivered s.db } := by
  have hsub : ∀ r ∈ (prune_delivered s.db).outbox.rows, r ∈ s.db.outbox.rows :=
    fun r hr => (Table.mem_delete.mp hr).1
  refine ⟨h.claims, h.calls, h.seqs, h.valid, fun r hr => h.outbox r (hsub r hr),
    fun r hr => h.ids r (hsub r hr), ?_, fun r hr => h.marked r (hsub r hr), ?_⟩
  · intro p hp
    refine (h.kept p hp).imp id ?_
    rintro ⟨r, hr, hholds⟩
    obtain ⟨hrow, hnone⟩ := mem_pending.mp hr
    exact ⟨r, mem_pending.mpr ⟨Table.mem_delete.mpr ⟨hrow, by rw [hnone]; rfl⟩, hnone⟩, hholds⟩
  · intro r hr
    obtain ⟨hlog, hid, hsame, hbefore⟩ := h.sending r hr
    exact ⟨hlog, hid, fun r' hr' => hsame r' (hsub r' hr'), hbefore⟩

/-- **Every step keeps the invariant.** The log grows by what the step has issued, the numbers by
what it has marked. -/
theorem sound_step {env : Env} {log : List Payload} {done : List ℕ} {s s' : State} {a : Label}
    (h : Sound env log done s) (hstep : Step env s a s') :
    Sound env (log ++ a.issued.toList) (done ++ a.delivered.toList) s' := by
  -- steps that issue nothing and mark nothing
  have hsame : ∀ {s' : State}, Sound env log done s' → Sound env (log ++ []) (done ++ []) s' := by
    intro s' h
    rwa [List.append_nil, List.append_nil]
  cases hstep with
  | @enqueue op jail ip now ban_uuid event_uuid result db hcall =>
    rcases enqueue_outcome h.claims hcall with ⟨e, rfl, rfl⟩ | ⟨op', ip', -, hjail, -, hip, hout⟩
    · exact hsame h
    · cases hout with
      | refused e => exact hsame h
      | repeated hrep => exact hsame h
      | @recorded p db' hrec =>
        have hvalid := hrec.valid h.claims hjail hip
        have := h.after_insert hrec.inserted hvalid
          (h.claims.of_recorded hjail hip (hrec.canonical h.claims) hrec) h.calls
        rwa [← List.append_nil done] at this
  | begin_snapshot claims expected_seq =>
    refine hsame (h.with_calls ?_)
    intro call hcall
    rcases List.mem_cons.mp hcall with rfl | hcall
    · exact ⟨⟨[], rfl, List.Forall₂.nil⟩, by simp, List.nodup_nil⟩
    · exact h.calls call hcall
  | @normalize before after call claim rest normalized ban_uuid hcalls hrest hn =>
    have hall := h.calls
    rw [hcalls, List.forall_mem_append, List.forall_mem_cons] at hall
    refine hsame (h.with_calls ?_)
    rw [List.forall_mem_append, List.forall_mem_cons]
    exact ⟨hall.1, hall.2.1.normalize h.claims hrest hn, hall.2.2⟩
  | @commit before after call now snapshot_uuid result db hcalls hrest hcommit =>
    have hall := h.calls
    rw [hcalls, List.forall_mem_append, List.forall_mem_cons] at hall
    -- the call that commits is over
    have hleft : ∀ call ∈ before ++ after, call.Sound :=
      List.forall_mem_append.mpr ⟨hall.1, hall.2.2⟩
    rcases commit_outcome hall.2.1.pairs hcommit with ⟨e, rfl, rfl⟩ | ⟨p, rfl, hcom⟩
    · exact hsame (h.with_calls hleft)
    · have hvalid := hcom.valid h.claims hall.2.1.valid hall.2.1.pairs
      have := h.after_insert hcom.inserted hvalid (hcom.claimsValid h.claims hall.2.1.valid) hleft
      rwa [← List.append_nil done] at this
  | @abandon before after call hcalls =>
    have hall := h.calls
    rw [hcalls, List.forall_mem_append, List.forall_mem_cons] at hall
    exact hsame (h.with_calls (List.forall_mem_append.mpr ⟨hall.1, hall.2.2⟩))
  | prune_delivered => exact hsame h.after_prune
  | @next_due now row hidle hdue =>
    obtain ⟨hrow, hleast⟩ := next_due_spec hdue
    obtain ⟨hmem, -⟩ := mem_pending.mp hrow
    refine hsame ⟨h.claims, h.calls, h.seqs, h.valid, h.outbox, h.ids, h.kept, h.marked, ?_⟩
    intro r hr
    cases hr
    refine ⟨h.outbox row hmem, h.ids row hmem, ?_, ?_⟩
    · intro r' hr' hid
      rw [Table.eq_of_key outbox_id_unique hr' hmem hid]
    · intro p hp hlt
      -- a payload with a smaller number would wait in front of the row
      rcases h.kept p hp with hdone | ⟨r', hr', hholds⟩
      · exact hdone
      · have hle := hleast r' hr'
        rw [hholds.seq] at hle
        omega
  | @finish row now delivered hsending =>
    cases delivered with
    | true =>
      have := h.after_delivered hsending now
      rwa [← List.append_nil log] at this
    | false => exact hsame (h.after_retry _ _ _ _ _)
  | crash =>
    exact hsame ⟨h.claims, h.calls, h.seqs, h.valid, h.outbox, h.ids, h.kept, h.marked, by simp⟩

theorem sound_initial (env : Env) : Sound env [] [] State.initial :=
  ⟨by simp [ClaimsValid, State.initial, DB.initial], by simp [State.initial], rfl, by simp,
    by simp [State.initial, DB.initial], by simp [State.initial, DB.initial], by simp,
    by simp [State.initial, DB.initial], by simp [State.initial]⟩

theorem sound_run {env : Env} {labels : List Label} {s : State}
    (h : Run (Step env) State.initial labels s) : Sound env (issued labels) (delivered labels) s := by
  refine Run.invariant (P := fun labels s => Sound env (issued labels) (delivered labels) s)
    (sound_initial env) ?_ h
  intro labels s₁ a s₂ _ hsound hstep
  rw [issued_snoc, delivered_snoc]
  exact sound_step hsound hstep

/-! ## A snapshot command that nothing interrupts

The model gives `enqueue_snapshot` twice. `enqueue_snapshot` itself is the function of the source,
for a command that has the database to itself; `begin_snapshot`, `normalize` and `commit` are the
pieces another process can come in between, and everything above is about them. The pieces taken
one after the other are the function. -/

/-- The turns of the loop over the argument, each with the UUID it may draw. -/
def turns (items : List (EnumeratedClaim × Uuid4)) : List Label :=
  items.map (fun item => .normalize item.2)

/-- A loop that gets through the argument. -/
theorem run_turns (env : Env) {items : List (EnumeratedClaim × Uuid4)} :
    ∀ {s : State} {call : SnapshotCall} {after : List SnapshotCall} {out : List SnapshotClaim},
      s.calls = call :: after → call.rest = items.map Prod.fst →
      normalize s.db call.normalized items = .ok out →
        Run (Step env) s (turns items)
          { s with calls := { call with rest := [], normalized := out } :: after } := by
  induction items with
  | nil =>
    intro s call after out hcalls hrest h
    cases h
    have hcall : { call with rest := [], normalized := call.normalized } = call := by
      rw [← show call.rest = [] from hrest]
    rw [hcall, ← hcalls]
    exact Run.nil
  | cons item items ih =>
    intro s call after out hcalls hrest h
    obtain ⟨claim, ban_uuid⟩ := item
    rw [normalize] at h
    cases hone : normalize_claim s.db call.normalized claim ban_uuid with
    | error e =>
      rw [hone] at h
      cases h
    | ok normalized =>
    rw [hone] at h
    have hstep : Step env s (.normalize ban_uuid)
        { s with calls := { call with rest := items.map Prod.fst, normalized } :: after } :=
      @Step.normalize env s [] after call claim _ _ ban_uuid hcalls hrest hone
    have hrun := ih (s := { s with
      calls := { call with rest := items.map Prod.fst, normalized } :: after }) rfl rfl h
    exact Run.cons hstep hrun

/-- A loop that raises does so in one of its turns, and none of the turns before it has touched
the database. -/
theorem run_turns_raise (env : Env) {items : List (EnumeratedClaim × Uuid4)} :
    ∀ {s : State} {call : SnapshotCall} {after : List SnapshotCall} {e : SenderError},
      s.calls = call :: after → call.rest = items.map Prod.fst →
      normalize s.db call.normalized items = .error e →
        ∃ n < items.length, ∃ call', Run (Step env) s (turns (items.take n))
          { s with calls := call' :: after } := by
  induction items with
  | nil =>
    intro s call after e hcalls hrest h
    cases h
  | cons item items ih =>
    intro s call after e hcalls hrest h
    obtain ⟨claim, ban_uuid⟩ := item
    rw [normalize] at h
    cases hone : normalize_claim s.db call.normalized claim ban_uuid with
    | error e' =>
      refine ⟨0, Nat.succ_pos _, call, ?_⟩
      rw [List.take_zero, ← hcalls]
      exact Run.nil
    | ok normalized =>
      rw [hone] at h
      have hstep : Step env s (.normalize ban_uuid)
          { s with calls := { call with rest := items.map Prod.fst, normalized } :: after } :=
        @Step.normalize env s [] after call claim _ _ ban_uuid hcalls hrest hone
      obtain ⟨n, hn, call', hrun⟩ := ih (s := { s with
        calls := { call with rest := items.map Prod.fst, normalized } :: after }) rfl rfl h
      exact ⟨n + 1, Nat.succ_lt_succ hn, call', Run.cons hstep hrun⟩

/-- A command up to its transaction. -/
theorem run_loop (env : Env) (s : State) {items : List (EnumeratedClaim × Uuid4)}
    (expected_seq : Option ℕ) {out : List SnapshotClaim} (h : normalize s.db [] items = .ok out) :
    Run (Step env) s (.begin_snapshot (items.map Prod.fst) expected_seq :: turns items)
      { s with calls := ⟨items.map Prod.fst, expected_seq, [], out⟩ :: s.calls } :=
  Run.cons (Step.begin_snapshot s _ _) (run_turns env
    (s := { s with calls := ⟨items.map Prod.fst, expected_seq, items.map Prod.fst, []⟩ :: s.calls })
    rfl rfl h)

/-- **The pieces are the function.** Take `enqueue_snapshot` with the claims of its argument and the
UUIDs it draws. When its loop raises, it returns that error with the database as it was, and so do
the pieces: the command begins, takes some turns and is over. When the loop gets through, its
turns and the transaction end with the result and the database of `enqueue_snapshot`. -/
theorem enqueue_snapshot_eq_steps (env : Env) (s : State) (items : List (EnumeratedClaim × Uuid4))
    (expected_seq : Option ℕ) (now : ℚ) (snapshot_uuid : Uuid4) :
    (∀ e, normalize s.db [] items = .error e →
      enqueue_snapshot env s.db items expected_seq now snapshot_uuid = (.error e, s.db) ∧
        ∃ n < items.length, Run (Step env) s
          (.begin_snapshot (items.map Prod.fst) expected_seq :: turns (items.take n) ++ [.abandon]) s) ∧
    ∀ out, normalize s.db [] items = .ok out →
      Run (Step env) s (.begin_snapshot (items.map Prod.fst) expected_seq :: turns items ++
          [.commit ⟨items.map Prod.fst, expected_seq, [], out⟩ now snapshot_uuid
            (enqueue_snapshot env s.db items expected_seq now snapshot_uuid).1])
        { s with db := (enqueue_snapshot env s.db items expected_seq now snapshot_uuid).2 } := by
  constructor
  · intro e h
    refine ⟨by rw [enqueue_snapshot, h], ?_⟩
    obtain ⟨n, hn, call', hrun⟩ := run_turns_raise env (s := { s with
      calls := ⟨items.map Prod.fst, expected_seq, items.map Prod.fst, []⟩ :: s.calls }) rfl rfl h
    exact ⟨n, hn, (Run.cons (Step.begin_snapshot s _ _) hrun).snoc
      (@Step.abandon env { s with calls := call' :: s.calls } [] s.calls call' rfl)⟩
  · intro out h
    have hcommit : commit_snapshot env s.db out expected_seq now snapshot_uuid =
        enqueue_snapshot env s.db items expected_seq now snapshot_uuid := by
      rw [enqueue_snapshot, h]
    exact (run_loop env s expected_seq h).snoc (@Step.commit env { s with
      calls := ⟨items.map Prod.fst, expected_seq, [], out⟩ :: s.calls } [] s.calls _ now snapshot_uuid
      _ _ rfl rfl hcommit)

end F2bguard.Sender
