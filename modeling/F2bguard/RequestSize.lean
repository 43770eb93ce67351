/-
How large requests get.

`HTTPSClient.send` refuses a body of more than `MAX_EVENT_BYTES`, and it does so when the row
is already in the outbox. The body of an event is always far below that. The length of a
snapshot's is a sum over its claims (`snapshot_size`), and nothing bounds the number of
claims when the snapshot is written: a row that is too large is refused each time it is
tried, and all rows behind it wait.
-/
import F2bguard.Agreement

set_option autoImplicit false

namespace F2bguard.Sender

open F2bguard.PyText F2bguard.PyJson F2bguard.Ipaddress F2bguard.Uuid F2bguard.Claims
open F2bguard.Tables F2bguard.Runs

/-! ## Lengths

Names, punctuation and UUIDs are of a fixed length, and the sender writes ASCII, so the length of
a request is known from the number, the jails and the addresses. -/

/-- The length of the request of a snapshot, from its number and its pairs: the names, the
punctuation and the UUIDs have fixed lengths. -/
def snapshot_size (seq : ℕ) (pairs : List (Text × Text)) : ℕ :=
  73 + (to_dec seq).length + (pairs.map (fun pair => 102 + pair.1.length + pair.2.length)).sum
    + (pairs.length - 1)

theorem claim_length (ft : FloatText) {c : SnapshotClaim} (h : c.Valid) :
    (dumps ft (sort_keys c.wire)).length = 102 + c.jail.length + c.ip.length := by
  have hban : (dumps ft (.str c.ban_id)).length = 38 := by
    rw [dumps_text_length ft (plainText_of_canonical h.ban_id), canonical_length h.ban_id]
  have hip := dumps_text_length ft (plainText_of_canonicalIP h.ip)
  have hjail := dumps_text_length ft (plainText_of_validJail h.jail)
  have hnull : (dumps ft .null).length = 4 := rfl
  have htrue : (dumps ft (.bool true)).length = 4 := rfl
  have h1 : (dumps_str "ban_id".toList).length = 8 := by decide
  have h2 : (dumps_str "expires_at".toList).length = 12 := by decide
  have h3 : (dumps_str "ip".toList).length = 4 := by decide
  have h4 : (dumps_str "jail".toList).length = 6 := by decide
  have h5 : (dumps_str "permanent".toList).length = 11 := by decide
  rw [sort_keys_claim, dumps_object_length]
  simp only [List.map_cons, List.map_nil, List.sum_cons, List.sum_nil, List.length_cons,
    List.length_nil, hban, hip, hjail, hnull, htrue, h1, h2, h3, h4, h5]
  omega

/-- The request of a snapshot is as long as `snapshot_size` says. -/
theorem snapshot_length (env : Env) {p : SnapshotPayload} (h : p.Valid) :
    ((Payload.snapshot p).message env).body.length =
      snapshot_size p.seq (p.claims.map SnapshotClaim.pair) := by
  have hid : (dumps env.floats (.str p.snapshot_id)).length = 38 := by
    rw [dumps_text_length _ (plainText_of_canonical h.snapshot_id), canonical_length h.snapshot_id]
  have hclaims : (p.claims.map (fun c => (dumps env.floats (sort_keys c.wire)).length)) =
      p.claims.map (fun c => 102 + c.jail.length + c.ip.length) :=
    List.map_congr_left (fun c hc => claim_length env.floats (h.claims c hc))
  have h1 : (dumps_str "claims".toList).length = 8 := by decide
  have h2 : (dumps_str "seq".toList).length = 5 := by decide
  have h3 : (dumps_str "snapshot_id".toList).length = 13 := by decide
  change (dumps env.floats (sort_keys p.wire)).length = _
  rw [sort_keys_snapshot, dumps_object_length]
  simp only [List.map_cons, List.map_nil, List.sum_cons, List.sum_nil, List.length_cons,
    List.length_nil, dumps_array_length, List.map_map, Function.comp_def, hclaims, hid,
    dumps_seq_length, h1, h2, h3, snapshot_size, List.length_map, SnapshotClaim.pair]
  omega

theorem snapshot_size_perm (seq : ℕ) {as bs : List (Text × Text)} (h : as.Perm bs) :
    snapshot_size seq as = snapshot_size seq bs := by
  rw [snapshot_size, snapshot_size, h.length_eq,
    (h.map (fun pair : Text × Text => 102 + pair.1.length + pair.2.length)).sum_eq]

/-- Every event fits, with room to spare. -/
theorem event_length_le (env : Env) {p : EventPayload} (h : p.Valid) :
    ((Payload.event p).message env).body.length ≤ MAX_EVENT_BYTES := by
  have hban : (dumps env.floats (.str p.ban_id)).length = 38 := by
    rw [dumps_text_length _ (plainText_of_canonical h.ban_id), canonical_length h.ban_id]
  have hid : (dumps env.floats (.str p.event_id)).length = 38 := by
    rw [dumps_text_length _ (plainText_of_canonical h.event_id), canonical_length h.event_id]
  have hip : (dumps env.floats (.str p.ip)).length ≤ 41 := by
    rw [dumps_text_length _ (plainText_of_canonicalIP h.ip)]
    obtain ⟨a, -, ha⟩ := h.ip
    have := a.str_length_le
    rw [ha]
    omega
  have hjail : (dumps env.floats (.str p.jail)).length ≤ 130 := by
    rw [dumps_text_length _ (plainText_of_validJail h.jail)]
    have : p.jail.length ≤ 128 := h.jail.short
    omega
  have hop : (dumps env.floats (.str p.op.text)).length ≤ 7 := by
    cases p.op with
    | ban => exact (show (dumps_str "ban".toList).length ≤ 7 by decide)
    | unban => exact (show (dumps_str "unban".toList).length ≤ 7 by decide)
  have hseq : (to_dec p.seq).length ≤ 19 := by
    rw [to_dec_length_le (by decide)]
    exact lt_of_le_of_lt h.seq_le (by decide)
  have hnull : (dumps env.floats .null).length = 4 := rfl
  have htrue : (dumps env.floats (.bool true)).length = 4 := rfl
  -- the fixed part: the names and the punctuation
  have h0 : (dumps_str "events".toList).length = 8 := by decide
  have h1 : (dumps_str "ban_id".toList).length = 8 := by decide
  have h2 : (dumps_str "event_id".toList).length = 10 := by decide
  have h3 : (dumps_str "expires_at".toList).length = 12 := by decide
  have h4 : (dumps_str "ip".toList).length = 4 := by decide
  have h5 : (dumps_str "jail".toList).length = 6 := by decide
  have h6 : (dumps_str "op".toList).length = 4 := by decide
  have h7 : (dumps_str "permanent".toList).length = 11 := by decide
  have h8 : (dumps_str "seq".toList).length = 5 := by decide
  change (dumps env.floats (.obj [("events".toList, .arr [sort_keys p.wire])])).length ≤ _
  rw [sort_keys_event, dumps_object_length]
  simp only [List.map_cons, List.map_nil, List.sum_cons, List.sum_nil, List.length_cons,
    List.length_nil, dumps_array_length, dumps_object_length, hban, hid, hnull, htrue,
    dumps_seq_length, h0, h1, h2, h3, h4, h5, h6, h7, h8]
  have : MAX_EVENT_BYTES = 1000000 := rfl
  omega

/-! ## Rows that fit

A row fits when `process_once` gets it to the network. Whether it does is decided when the row is
written, and stays so: each attempt reads the same text. -/

/-- `process_once` gets the row's request to the network. That the reply acknowledges it is
another matter. -/
def RowFits (env : Env) (row : OutboxRow) : Prop :=
  ∃ request message, row_request env row = .ok request ∧
    send_request env request = .ok message ∧ message.body.length ≤ MAX_EVENT_BYTES

/-- `process_once` fails before it gets to the network, whenever it tries the row. -/
def RowRefused (env : Env) (row : OutboxRow) : Prop :=
  ∃ request, row_request env row = .ok request ∧
    send_request env request = value_error "request is too large".toList

theorem rowFits_of_le {env : Env} {row : OutboxRow} {p : Payload} (hrow : Holds env row p)
    (h : p.Valid) (hle : (p.message env).body.length ≤ MAX_EVENT_BYTES) : RowFits env row := by
  refine ⟨p.request, p.message env, row_request_eq hrow h, ?_, hle⟩
  rw [send_request_eq, if_neg (not_lt.mpr hle)]

theorem rowRefused_of_lt {env : Env} {row : OutboxRow} {p : Payload} (hrow : Holds env row p)
    (h : p.Valid) (hlt : MAX_EVENT_BYTES < (p.message env).body.length) : RowRefused env row := by
  refine ⟨p.request, row_request_eq hrow h, ?_⟩
  rw [send_request_eq, if_pos hlt]

/-- The pair a claim of the argument stands for. -/
def EnumeratedClaim.pair (claim : EnumeratedClaim) : Text × Text :=
  (claim.jail, match canonical_ip claim.ip with
    | .ok ip => ip
    | .error _ => claim.ip)

theorem pairs_of_progress {read : List EnumeratedClaim} {normalized : List SnapshotClaim}
    (h : List.Forall₂ (fun (claim : EnumeratedClaim) (c : SnapshotClaim) =>
      c.jail = claim.jail ∧ canonical_ip claim.ip = .ok c.ip) read normalized) :
    normalized.map SnapshotClaim.pair = read.map EnumeratedClaim.pair := by
  induction h with
  | nil => rfl
  | @cons claim c _ _ hone _ ih =>
    have hpair : c.pair = claim.pair := by
      rw [EnumeratedClaim.pair, hone.2, ← hone.1]
      rfl
    rw [List.map_cons, List.map_cons, ih, hpair]

/-- The pairs of a call that has gone through its argument. -/
theorem SnapshotCall.Sound.pairs_eq {call : SnapshotCall} (h : call.Sound)
    (hrest : call.rest = []) :
    call.normalized.map SnapshotClaim.pair = call.claims.map EnumeratedClaim.pair := by
  obtain ⟨read, hread, hall⟩ := h.progress
  rw [hrest, List.append_nil] at hread
  rw [hread]
  exact pairs_of_progress hall

/-- **The condition on a step**: a snapshot that is committed is small enough to be sent. A call
whose transaction raises, because of a race or a full queue, has written nothing, so nothing is
asked of it. -/
def SizeMet (s : State) : Label → Prop
  | .commit call _ _ (.ok _) =>
      snapshot_size (s.db.seq + 1) (call.claims.map EnumeratedClaim.pair) ≤ MAX_EVENT_BYTES
  | _ => True

/-- The length of a committed snapshot's request, from the argument of its call. -/
theorem committed_length {env : Env} {db db' : DB} {call : SnapshotCall} {now : ℚ}
    {snapshot_uuid : Uuid4} {p : SnapshotPayload} (hvalid : ClaimsValid db) (hcall : call.Sound)
    (hrest : call.rest = [])
    (h : Committed env db call.normalized call.expected_seq now snapshot_uuid p db') :
    ((Payload.snapshot p).message env).body.length =
      snapshot_size (db.seq + 1) (call.claims.map EnumeratedClaim.pair) := by
  have hseq : p.seq = db.seq + 1 := h.inserted.seq
  rw [snapshot_length env (h.valid hvalid hcall.valid hcall.pairs), hseq,
    snapshot_size_perm _ h.pairs, hcall.pairs_eq hrest]

/-- A step that meets the condition writes a request that fits. -/
theorem issued_fits {env : Env} {log : List Payload} {done : List ℕ} {s s' : State} {a : Label}
    (hsound : Sound env log done s) (hstep : Step env s a s') (hsize : SizeMet s a) :
    ∀ p ∈ a.issued, (p.message env).body.length ≤ MAX_EVENT_BYTES := by
  intro p hp
  have hvalid : p.Valid := by
    have := (sound_step hsound hstep).valid p
    rw [Option.mem_def.mp hp] at this
    exact this (List.mem_append_right _ (List.mem_singleton.mpr rfl))
  cases hstep with
  | @enqueue op jail ip now ban_uuid event_uuid result db hcall =>
    cases result with
    | error e => cases hp
    | ok r =>
      cases r with
      | none => cases hp
      | some q =>
        cases hp
        exact event_length_le env hvalid
  | @commit before after call now snapshot_uuid result db hcalls hrest hcommit =>
    cases result with
    | error e => cases hp
    | ok q =>
      cases hp
      have hcall : call.Sound := hsound.calls call (by rw [hcalls]; simp)
      rcases commit_outcome hcall.pairs hcommit with ⟨e, he, -⟩ | ⟨q', hq', hcom⟩
      · cases he
      · cases hq'
        rw [committed_length hsound.claims hcall hrest hcom]
        exact hsize
  | _ => cases hp

/-- A committed snapshot that does not meet the condition cannot be sent. -/
theorem oversized_row {env : Env} {labels : List Label} {s s' : State} {call : SnapshotCall}
    {now : ℚ} {snapshot_uuid : Uuid4} {p : SnapshotPayload}
    (hrun : Run (Step env) State.initial labels s)
    (hstep : Step env s (.commit call now snapshot_uuid (.ok p)) s')
    (hsize : ¬ SizeMet s (.commit call now snapshot_uuid (.ok p))) :
    ∃ row ∈ pending s'.db, RowRefused env row := by
  have hsound := sound_run hrun
  cases hstep with
  | @commit before after _ _ _ _ db hcalls hrest hcommit =>
    have hcall : call.Sound := hsound.calls call (by rw [hcalls]; simp)
    rcases commit_outcome hcall.pairs hcommit with ⟨e, he, -⟩ | ⟨q, hq, hcom⟩
    · cases he
    · cases hq
      have hvalid : (Payload.snapshot p).Valid :=
        hcom.valid hsound.claims hcall.valid hcall.pairs
      refine ⟨payload_row env s.db (.snapshot p) now, mem_pending.mpr ⟨?_, rfl⟩, ?_⟩
      · rw [hcom.inserted.outbox]
        exact List.mem_append_right _ (List.mem_singleton.mpr rfl)
      · refine rowRefused_of_lt (holds_payload_row env s.db _ now) hvalid ?_
        rw [committed_length hsound.claims hcall hrest hcom]
        exact not_le.mp hsize

/-- **Which rows can be sent.** In every run whose committed snapshots are small enough, every
pending row can be sent; and a committed snapshot that is not leaves a pending row that is
refused. A call that committed nothing is under no condition. -/
theorem pending_rows_fit (env : Env) :
    (∀ labels s, Run (fun s a s' => Step env s a s' ∧ SizeMet s a) State.initial labels s →
      ∀ row ∈ pending s.db, RowFits env row) ∧
    (∀ labels s call now snapshot_uuid p s', Run (Step env) State.initial labels s →
      Step env s (.commit call now snapshot_uuid (.ok p)) s' →
      ¬ SizeMet s (.commit call now snapshot_uuid (.ok p)) →
        ∃ row ∈ pending s'.db, RowRefused env row) := by
  constructor
  · intro labels s hrun
    have hinv : Sound env (issued labels) (delivered labels) s ∧
        ∀ p ∈ issued labels, (p.message env).body.length ≤ MAX_EVENT_BYTES := by
      refine Run.invariant (P := fun labels s => Sound env (issued labels) (delivered labels) s ∧
        ∀ p ∈ issued labels, (p.message env).body.length ≤ MAX_EVENT_BYTES)
        ⟨sound_initial env, by simp [issued]⟩ ?_ hrun
      rintro labels s₁ a s₂ - ⟨hsound, hfit⟩ ⟨hstep, hsize⟩
      rw [issued_snoc, delivered_snoc]
      refine ⟨sound_step hsound hstep, fun p hp => ?_⟩
      rcases List.mem_append.mp hp with hp | hp
      · exact hfit p hp
      · exact issued_fits hsound hstep hsize p (Option.mem_toList.mp hp)
    intro row hrow
    obtain ⟨p, hp, hholds⟩ := hinv.1.outbox row (mem_pending.mp hrow).1
    exact rowFits_of_le hholds (hinv.1.valid p hp) (hinv.2 p hp)
  · intro labels s call now snapshot_uuid p s' hrun hstep hsize
    exact oversized_row hrun hstep hsize

/-- What Fail2Ban answers after the first ban, with a UUID for the turn of the loop. -/
def sample_listed : List (EnumeratedClaim × Uuid4) :=
  [({ jail := "sshd".toList, ip := "203.0.113.7".toList }, sample_uuid')]

/-- The claim that is normalized from it keeps its identity. -/
def sample_normalized : List SnapshotClaim :=
  [⟨"sshd".toList, sample_uuid.text, "203.0.113.7".toList⟩]

/-- A call that has gone through its argument. -/
def sample_call (seq : ℕ) : SnapshotCall :=
  ⟨sample_listed.map Prod.fst, some seq, [], sample_normalized⟩

/-- The state after a snapshot command that read the number `seq` and was not interrupted. -/
def after_snapshot (s : State) (seq : ℕ) : State :=
  { s with db := (enqueue_snapshot sample_sender s.db sample_listed (some seq) 2
    sample_snapshot_uuid).2 }

/-- Such a command meets the condition where its transaction does. -/
theorem run_sized_snapshot (s : State) (seq : ℕ) (result : Except SenderError SnapshotPayload)
    (hloop : normalize s.db [] sample_listed = .ok sample_normalized)
    (hresult : (enqueue_snapshot sample_sender s.db sample_listed (some seq) 2
      sample_snapshot_uuid).1 = result)
    (hsize : SizeMet { s with calls := sample_call seq :: s.calls }
      (.commit (sample_call seq) 2 sample_snapshot_uuid result)) :
    Run (fun s a s' => Step sample_sender s a s' ∧ SizeMet s a) s
      (.begin_snapshot (sample_listed.map Prod.fst) (some seq) :: turns sample_listed ++
        [.commit (sample_call seq) 2 sample_snapshot_uuid result]) (after_snapshot s seq) := by
  have hbefore : Run (fun s a s' => Step sample_sender s a s' ∧ SizeMet s a) s
      (.begin_snapshot (sample_listed.map Prod.fst) (some seq) :: turns sample_listed)
      { s with calls := sample_call seq :: s.calls } := by
    refine (run_loop sample_sender s (some seq) hloop).imp ?_
    intro t a t' ha hstep
    refine ⟨hstep, ?_⟩
    rcases List.mem_cons.mp ha with rfl | ha
    · trivial
    · rw [List.mem_singleton.mp ha]
      trivial
  have hcommit : commit_snapshot sample_sender s.db sample_normalized (some seq) 2
      sample_snapshot_uuid = (result, (after_snapshot s seq).db) := by
    rw [← hresult]
    exact (show enqueue_snapshot sample_sender s.db sample_listed (some seq) 2 sample_snapshot_uuid =
      commit_snapshot sample_sender s.db sample_normalized (some seq) 2 sample_snapshot_uuid by
        rw [enqueue_snapshot, hloop]).symm
  exact hbefore.snoc ⟨@Step.commit sample_sender { s with calls := sample_call seq :: s.calls } []
    s.calls (sample_call seq) 2 sample_snapshot_uuid result (after_snapshot s seq).db rfl rfl hcommit,
    hsize⟩

/-- A ban, a snapshot that is committed and one that ends in a race: both pending rows can be
sent. -/
theorem pending_rows_fit_ban : ∃ labels,
    .commit (sample_call 1) 2 sample_snapshot_uuid
      (.ok ⟨sample_snapshot_uuid.text, 2, sample_normalized⟩) ∈ labels ∧
    .commit (sample_call 1) 2 sample_snapshot_uuid (.error .snapshot_race) ∈ labels ∧
    Run (Step sample_sender) State.initial labels (after_snapshot (after_snapshot sample_banned 1) 1) ∧
    (pending (after_snapshot (after_snapshot sample_banned 1) 1).db).length = 2 ∧
    ∀ row ∈ pending (after_snapshot (after_snapshot sample_banned 1) 1).db, RowFits sample_sender row := by
  have hfirst : Run (fun s a s' => Step sample_sender s a s' ∧ SizeMet s a) State.initial _
    sample_banned := Run.single ⟨sample_banned_step, trivial⟩
  have hcommitted := run_sized_snapshot sample_banned 1
    (.ok ⟨sample_snapshot_uuid.text, 2, sample_normalized⟩) (by decide +kernel)
    (by decide +kernel) (show snapshot_size 2 _ ≤ MAX_EVENT_BYTES by decide +kernel)
  have hraced := run_sized_snapshot (after_snapshot sample_banned 1) 1 (.error .snapshot_race)
    (by decide +kernel) (by decide +kernel) trivial
  have hrun := (hfirst.append hcommitted).append hraced
  refine ⟨_, ?_, ?_, hrun.imp (fun _ _ _ _ h => h.1), by decide +kernel,
    (pending_rows_fit sample_sender).1 _ _ hrun⟩
  · exact List.mem_append_left _ (List.mem_append_right _ (List.mem_append_right _
      (List.mem_singleton.mpr rfl)))
  · exact List.mem_append_right _ (List.mem_append_right _ (List.mem_singleton.mpr rfl))

/-! ## A snapshot that is too large

Ten thousand permanent bans of one jail, all of them new. The run is made for any number of bans;
only the last step puts in the number. -/

/-- The loop when no pair of the argument has a claim yet: every turn draws a new UUID. -/
theorem normalize_unclaimed {db : DB} (hdb : ∀ pair, active_claim db pair = none)
    {items : List (EnumeratedClaim × Uuid4)} : ∀ before : List SnapshotClaim,
      (∀ item ∈ items, ValidJail item.1.jail ∧ CanonicalIP item.1.ip ∧ item.1.ban_id = none) →
      (before.map SnapshotClaim.pair ++ items.map (fun item => (item.1.jail, item.1.ip))).Nodup →
        normalize db before items =
          .ok (before ++ items.map (fun item => ⟨item.1.jail, item.2.text, item.1.ip⟩)) := by
  induction items with
  | nil => intro before _ _; rw [normalize, List.map_nil, List.append_nil]
  | cons item items ih =>
    intro before hitems hnodup
    obtain ⟨claim, ban_uuid⟩ := item
    obtain ⟨hjail, hip, hban⟩ := hitems _ List.mem_cons_self
    dsimp only at hjail hip hban
    rw [List.map_cons, ← List.singleton_append, ← List.append_assoc] at hnodup
    -- the pair does not occur before, so the loop does not skip it
    have hnew : before.any (fun c => c.pair = (claim.jail, claim.ip)) = false := by
      rw [List.any_eq_false]
      intro c hc
      have hleft := (List.nodup_append.mp hnodup).1
      have hne := (List.nodup_append.mp hleft).2.2 c.pair (List.mem_map_of_mem hc)
        (claim.jail, claim.ip) (List.mem_singleton.mpr rfl)
      simpa using hne
    have hone : normalize_claim db before claim ban_uuid =
        .ok (before ++ [⟨claim.jail, ban_uuid.text, claim.ip⟩]) := by
      unfold normalize_claim
      rw [_jail_eq_ok.mpr ⟨hjail, rfl⟩, canonical_ip_self hip]
      dsimp only [bind, Except.bind]
      rw [hnew, hban, current_claim_eq, hdb]
      rfl
    rw [normalize, hone]
    have hrest := ih (before ++ [⟨claim.jail, ban_uuid.text, claim.ip⟩])
      (fun x hx => hitems x (List.mem_cons_of_mem _ hx))
      (by rw [List.map_append]; exact hnodup)
    refine hrest.trans ?_
    rw [List.append_assoc, List.map_cons, List.singleton_append]

/-- The statements of a snapshot go through when its claims clash neither with each other
nor with the table. -/
theorem activate_claims_ok {claims : List SnapshotClaim} : ∀ db : DB,
    (claims.map SnapshotClaim.pair).Nodup → (claims.map SnapshotClaim.key).Nodup →
    (∀ r ∈ db.claims.rows, ∀ c ∈ claims, r.key ≠ c.pair ∧ r.ban_key ≠ c.key) →
      ∃ db', activate_claims db claims = .ok db' := by
  induction claims with
  | nil => intro db _ _ _; exact ⟨db, rfl⟩
  | cons c cs ih =>
    intro db hpairs hkeys hdb
    rw [List.map_cons, List.nodup_cons] at hpairs hkeys
    -- no row has the pair, so the upsert is an insert
    have hany : db.claims.rows.any (fun r => r.key = (c.jail, c.ip)) = false := by
      rw [List.any_eq_false]
      intro r hr
      have := (hdb r hr c List.mem_cons_self).1
      simpa [SnapshotClaim.pair] using this
    have hsome : (db.claims.insert ⟨c.jail, c.ip, c.ban_id, true⟩).isSome := by
      rw [Table.insert_isSome]
      exact fun r hr => hdb r hr c List.mem_cons_self
    obtain ⟨t, ht⟩ := Option.isSome_iff_exists.mp hsome
    have hone : activate db c.jail c.ip c.ban_id = .ok { db with claims := t } := by
      rw [activate, Table.upsert_of_not_any hany, ht]
      rfl
    have hrows := Table.insert_eq_some.mp ht
    obtain ⟨db', hdb'⟩ := ih { db with claims := t } hpairs.2 hkeys.2 (by
      intro r hr x hx
      rw [hrows] at hr
      rcases List.mem_append.mp hr with hr | hr
      · exact hdb r hr x (List.mem_cons_of_mem _ hx)
      · rw [List.mem_singleton.mp hr]
        constructor
        · intro h
          exact hpairs.1 (List.mem_map.mpr ⟨x, hx, h.symm⟩)
        · intro h
          exact hkeys.1 (List.mem_map.mpr ⟨x, hx, h.symm⟩))
    refine ⟨db', ?_⟩
    rw [activate_claims, List.foldlM_cons, hone]
    exact hdb'

/-- The first transaction of a new sender writes whatever snapshot it is given. -/
theorem commit_initial (env : Env) (claims : List SnapshotClaim) (snapshot_uuid : Uuid4) (now : ℚ)
    (hpairs : (claims.map SnapshotClaim.pair).Nodup)
    (hkeys : (claims.map SnapshotClaim.key).Nodup) :
    ∃ p db', commit_snapshot env DB.initial claims (some 0) now snapshot_uuid = (.ok p, db') := by
  obtain ⟨db1, hactivate⟩ := activate_claims_ok DB.initial hpairs hkeys
    (by intro r hr; cases hr)
  obtain ⟨t, rfl, -, -⟩ := activate_claims_spec hpairs hactivate
  have hcapacity : _check_capacity env DB.initial = .ok () :=
    if_neg (not_le.mpr env.max_pending_pos)
  have hreuse : claims.map (reuse_ban_id (active_rows DB.initial)) = claims :=
    List.map_id'' (fun _ => rfl) claims
  unfold commit_snapshot commit_snapshot_body
  dsimp only
  rw [if_neg (by decide), hcapacity, hreuse, hactivate]
  exact ⟨_, _, rfl⟩

/-- An address of `10.0.0.0/8`. -/
def sample_address (n : ℕ) : IPAddress := .v4 (Fin.ofNat (2 ^ 32) (167772160 + n))

theorem sample_address_toNat {n : ℕ} (hn : n < 16777216) :
    (sample_address n).toNat = 167772160 + n := by
  change (167772160 + n) % 2 ^ 32 = _
  rw [Nat.mod_eq_of_lt (by omega)]

theorem sample_address_unprotected {n : ℕ} (hn : n < 16777216) :
    (sample_address n).is_protected = false := by
  have hval : (Fin.ofNat (2 ^ 32) (167772160 + n)).val = 167772160 + n := by
    change (167772160 + n) % 2 ^ 32 = _
    rw [Nat.mod_eq_of_lt (by omega)]
  simp only [IPAddress.is_protected, sample_address, IPAddress.is_unspecified, IPAddress.toNat,
    IPAddress.is_multicast, IPAddress.is_loopback, IPAddress.is_link_local,
    IPAddress.is_ipv4_mapped, hval, Bool.or_eq_false_iff, beq_eq_false_iff_ne, ne_eq, and_true]
  refine ⟨⟨⟨?_, ?_⟩, ?_⟩, ?_⟩ <;> omega

theorem sample_address_injective {m n : ℕ} (hm : m < 16777216) (hn : n < 16777216)
    (h : (sample_address m).str = (sample_address n).str) : m = n := by
  have := congrArg IPAddress.toNat (IPAddress.str_injective h)
  rw [sample_address_toNat hm, sample_address_toNat hn] at this
  omega

theorem sample_address_length (n : ℕ) : 7 ≤ (sample_address n).str.length := by
  have hpos : ∀ d, 1 ≤ (to_dec d).length := fun d => List.length_pos_of_ne_nil (to_dec_ne_nil d)
  change 7 ≤ (ipv4_str _).length
  rw [ipv4_str, join_length]
  simp only [be_digits, List.nil_append, List.cons_append, List.map_cons, List.map_nil,
    List.sum_cons, List.sum_nil, List.length_cons, List.length_nil]
  have h0 := hpos ((Fin.ofNat (2 ^ 32) (167772160 + n)).val / 256 / 256 / 256 % 256)
  have h1 := hpos ((Fin.ofNat (2 ^ 32) (167772160 + n)).val / 256 / 256 % 256)
  have h2 := hpos ((Fin.ofNat (2 ^ 32) (167772160 + n)).val / 256 % 256)
  have h3 := hpos ((Fin.ofNat (2 ^ 32) (167772160 + n)).val % 256)
  omega

/-- Fail2Ban's line for a permanent ban. -/
def ban_line (ip : Text) : Text :=
  ip ++ " \t2025-01-01 00:00:00 + -1 = 9999-12-31 23:59:59".toList

theorem is_space_of_line_end {c : Char} (h : is_line_end c = true) : is_space c = true := by
  simp only [is_line_end, is_space, Bool.or_eq_true, Bool.and_eq_true, decide_eq_true_eq,
    beq_iff_eq] at *
  omega

theorem not_space_of_canonicalIP {ip : Text} (h : CanonicalIP ip) {c : Char} (hc : c ∈ ip) :
    is_space c = false := by
  obtain ⟨a, -, rfl⟩ := h
  rcases IPAddress.mem_str hc with rfl | rfl | hhex
  · decide
  · decide
  · exact not_space_of_hex hhex

theorem canonicalIP_ne_nil {ip : Text} (h : CanonicalIP ip) : ip ≠ [] := by
  rintro rfl
  have hread : canonical_ip [] = .ok [] := canonical_ip_self h
  cases hread

theorem ban_with_time_line {ip : Text} (h : CanonicalIP ip) :
    ban_with_time (ban_line ip) = some (ip, "-1".toList) := by
  have hall : ∀ c ∈ ip, (!is_space c) = true := by
    intro c hc
    rw [not_space_of_canonicalIP h hc]
    rfl
  have htake : (ban_line ip).takeWhile (fun c => !is_space c) = ip := by
    rw [ban_line, List.takeWhile_append_of_pos hall]
    exact List.append_nil ip
  have hdrop : (ban_line ip).dropWhile (fun c => !is_space c) =
      " \t2025-01-01 00:00:00 + -1 = 9999-12-31 23:59:59".toList := by
    rw [ban_line, List.dropWhile_append_of_pos hall]
    rfl
  have hguard : (guard (ip ≠ []) : Option Unit) = some () := if_pos (canonicalIP_ne_nil h)
  unfold ban_with_time
  simp only [htake, hdrop, hguard]
  rfl

theorem ban_line_not_end {ip : Text} (h : CanonicalIP ip) :
    ∀ c ∈ ban_line ip, is_line_end c = false := by
  intro c hc
  rcases List.mem_append.mp hc with hc | hc
  · by_contra hend
    have := is_space_of_line_end (by simpa using hend)
    rw [not_space_of_canonicalIP h hc] at this
    cases this
  · have hsuffix : ∀ c ∈ " \t2025-01-01 00:00:00 + -1 = 9999-12-31 23:59:59".toList,
        is_line_end c = false := by decide
    exact hsuffix c hc

theorem add_bans {ips : List Text} (h : ∀ ip ∈ ips, CanonicalIP ip) : ∀ result : List Text,
    (ips.map ban_line).foldlM add_ban result = .ok (result ++ ips) := by
  induction ips with
  | nil => intro result; rw [List.append_nil]; rfl
  | cons ip ips ih =>
    intro result
    have hip := h ip List.mem_cons_self
    have hone : add_ban result (ban_line ip) = .ok (result ++ [ip]) := by
      have hduration : int_duration "-1".toList = some (-1) := by decide
      simp only [add_ban, ban_with_time_line hip, canonical_ip_self hip, hduration, if_true]
    rw [List.map_cons, List.foldlM_cons, hone]
    exact (ih (fun x hx => h x (List.mem_cons_of_mem _ hx)) _).trans (by rw [List.append_assoc]; rfl)

/-- Fail2Ban's answer with a permanent ban of each address. -/
def ban_list (ips : List Text) : Text := (ips.map ban_line).flatMap (fun line => line ++ ['\n'])

theorem extract_ban_list {ips : List Text} (h : ∀ ip ∈ ips, CanonicalIP ip) (hne : ips ≠ [])
    (hnodup : ips.Nodup) : _extract_permanent_ips (ban_list ips) = .ok ips := by
  have hlines : splitlines (ban_list ips) = ips.map ban_line := by
    refine splitlines_lines _ (fun line hline => ?_)
    obtain ⟨ip, hip, rfl⟩ := List.mem_map.mp hline
    exact ban_line_not_end (h ip hip)
  have hstrip : strip (ban_list ips) ≠ [] := by
    obtain ⟨ip, rest, rfl⟩ := List.exists_cons_of_ne_nil hne
    have hip := h ip List.mem_cons_self
    obtain ⟨c, cs, rfl⟩ := List.exists_cons_of_ne_nil (canonicalIP_ne_nil hip)
    have hc : is_space c = false := not_space_of_canonicalIP hip List.mem_cons_self
    intro hnil
    -- the first character is no white space, so `strip` keeps it
    have hdrop : (ban_list ((c :: cs) :: rest)).dropWhile is_space = ban_list ((c :: cs) :: rest) :=
      List.dropWhile_cons_of_neg (by rw [hc]; decide)
    rw [strip, hdrop, List.rdropWhile_eq_nil_iff] at hnil
    have := hnil c List.mem_cons_self
    rw [hc] at this
    cases this
  rw [_extract_permanent_ips, if_neg hstrip, hlines, add_bans h]
  dsimp only [bind, Except.bind]
  rw [List.nil_append, if_neg (not_not.mpr hnodup)]
  rfl

/-- The addresses of the sample: one for each number below `n`. -/
def sample_ips (n : ℕ) : List Text := (List.range n).map (fun k => (sample_address k).str)

theorem sample_ips_canonical {n : ℕ} (hn : n ≤ 16777216) : ∀ ip ∈ sample_ips n, CanonicalIP ip := by
  intro ip hip
  obtain ⟨k, hk, rfl⟩ := List.mem_map.mp hip
  exact ⟨_, sample_address_unprotected ((List.mem_range.mp hk).trans_le hn), rfl⟩

theorem sample_ips_nodup {n : ℕ} (hn : n ≤ 16777216) : (sample_ips n).Nodup := by
  refine List.Nodup.map_on (fun x hx y hy h => ?_) List.nodup_range
  exact sample_address_injective ((List.mem_range.mp hx).trans_le hn)
    ((List.mem_range.mp hy).trans_le hn) h

/-- The claims of the sample, each with the UUID it draws. -/
def sample_items (n : ℕ) : List (EnumeratedClaim × Uuid4) :=
  (List.range n).map (fun k => (⟨"sshd".toList, (sample_address k).str, none⟩, Uuid4.nth k))

theorem enumerate_single {config : SenderConfig} {jail : PermanentJail}
    {runner : Text → Option Completed} {claims : List EnumeratedClaim}
    (hconfig : config.permanent_jails = [jail])
    (h : enumerate_jail (runner jail.name) jail = .ok claims) :
    enumerate_permanent_jails config runner = .ok claims := by
  rw [enumerate_permanent_jails, hconfig, List.mapM_cons, h, List.mapM_nil]
  dsimp only [bind, Except.bind, pure, Except.pure, Except.map]
  rw [List.flatten_cons, List.flatten_nil, List.append_nil]

theorem enumerate_jail_ban_list {jail : PermanentJail} {ips : List Text}
    (h : ∀ ip ∈ ips, CanonicalIP ip) (hne : ips ≠ []) (hnodup : ips.Nodup) :
    enumerate_jail (some ⟨0, ban_list ips⟩) jail =
      .ok (ips.map (fun ip => ⟨jail.name, ip, none⟩)) := by
  unfold enumerate_jail
  dsimp only
  rw [if_neg (by decide), extract_ban_list h hne hnodup]
  rfl

theorem valid_sshd : ValidJail "sshd".toList := by decide

/-- Fail2Ban reports `n` bans and the enumeration returns them all. -/
theorem enumerate_sample {n : ℕ} (hpos : 0 < n) (hn : n ≤ 16777216) :
    enumerate_permanent_jails (sample_config "sshd" valid_sshd)
        (fun _ => some ⟨0, ban_list (sample_ips n)⟩) =
      .ok ((sample_items n).map Prod.fst) := by
  have hne : sample_ips n ≠ [] := by
    rw [sample_ips, Ne, List.map_eq_nil_iff, List.range_eq_nil]
    omega
  refine enumerate_single rfl ?_
  rw [enumerate_jail_ban_list (sample_ips_canonical hn) hne (sample_ips_nodup hn), sample_ips,
    sample_items, List.map_map, List.map_map]
  rfl

theorem sample_items_valid {n : ℕ} (hn : n ≤ 16777216) : ∀ item ∈ sample_items n,
    ValidJail item.1.jail ∧ CanonicalIP item.1.ip ∧ item.1.ban_id = none := by
  intro item hitem
  obtain ⟨k, hk, rfl⟩ := List.mem_map.mp hitem
  exact ⟨valid_sshd, ⟨_, sample_address_unprotected ((List.mem_range.mp hk).trans_le hn), rfl⟩, rfl⟩

/-- A new sender can write a snapshot of the `n` bans it was told. -/
theorem run_sample {n : ℕ} (hn : n ≤ 16777216) :
    ∃ labels s call p s', Run (Step sample_sender) State.initial labels s ∧
      .begin_snapshot ((sample_items n).map Prod.fst) (some 0) ∈ labels ∧
      call.claims = (sample_items n).map Prod.fst ∧ s.db = DB.initial ∧
      Step sample_sender s (.commit call 0 sample_uuid (.ok p)) s' := by
  have hpairs : ((sample_items n).map (fun item => (item.1.jail, item.1.ip))).Nodup := by
    rw [sample_items, List.map_map]
    refine List.Nodup.map_on (fun x hx y hy h => ?_) List.nodup_range
    exact sample_address_injective ((List.mem_range.mp hx).trans_le hn)
      ((List.mem_range.mp hy).trans_le hn) (Prod.mk.inj h).2
  have hkeys : ((sample_items n).map (fun item => (item.1.jail, item.2.text))).Nodup := by
    rw [sample_items, List.map_map]
    refine List.Nodup.map_on (fun x hx y hy h => ?_) List.nodup_range
    have hx' := (List.mem_range.mp hx).trans_le hn
    have hy' := (List.mem_range.mp hy).trans_le hn
    exact Uuid4.nth_text_injective (by omega) (by omega) (Prod.mk.inj h).2
  have hloop := normalize_unclaimed (show ∀ pair, active_claim DB.initial pair = none from
    fun _ => rfl) [] (sample_items_valid hn) hpairs
  have hrun := run_loop sample_sender State.initial (some 0) hloop
  rw [List.nil_append] at hrun
  have hmap : ∀ f : EnumeratedClaim × Uuid4 → SnapshotClaim, ∀ g : SnapshotClaim → Text × Text,
      ((sample_items n).map f).map g = (sample_items n).map (fun item => g (f item)) :=
    fun f g => List.map_map
  obtain ⟨p, db, hcommit⟩ := commit_initial sample_sender
    ((sample_items n).map (fun item => ⟨item.1.jail, item.2.text, item.1.ip⟩))
    sample_uuid 0 (by rw [hmap]; exact hpairs) (by rw [hmap]; exact hkeys)
  exact ⟨_, _, _, p, _, hrun, List.mem_cons_self, rfl, rfl,
    @Step.commit sample_sender _ [] [] _ 0 sample_uuid _ _ rfl rfl hcommit⟩

/-- Each claim of the sample takes more than a hundred characters. -/
theorem sample_size {n : ℕ} (hn : n ≤ 16777216) :
    113 * n ≤ snapshot_size 1 (((sample_items n).map Prod.fst).map EnumeratedClaim.pair) := by
  have hpairs : ((sample_items n).map Prod.fst).map EnumeratedClaim.pair =
      (List.range n).map (fun k => ("sshd".toList, (sample_address k).str)) := by
    rw [sample_items, List.map_map, List.map_map]
    refine List.map_congr_left (fun k hk => ?_)
    have hip : CanonicalIP (sample_address k).str :=
      ⟨_, sample_address_unprotected ((List.mem_range.mp hk).trans_le hn), rfl⟩
    simp only [Function.comp_apply, EnumeratedClaim.pair, canonical_ip_self hip]
  have hsum : 113 * n ≤ ((List.range n).map
      (fun k => 102 + "sshd".toList.length + (sample_address k).str.length)).sum := by
    have hle := List.card_nsmul_le_sum ((List.range n).map
      (fun k => 102 + "sshd".toList.length + (sample_address k).str.length)) 113 (by
        intro x hx
        obtain ⟨k, -, rfl⟩ := List.mem_map.mp hx
        have := sample_address_length k
        have hsshd : "sshd".toList.length = 4 := rfl
        omega)
    rwa [List.length_map, List.length_range, smul_eq_mul, Nat.mul_comm] at hle
  rw [hpairs, snapshot_size, List.map_map]
  simp only [Function.comp_def]
  omega

/-- Fail2Ban reports ten thousand bans, the snapshot of them is committed, and its row can
never be sent. -/
theorem oversized_snapshot_pending : ∃ runner claims labels s,
    enumerate_permanent_jails (sample_config "sshd" valid_sshd) runner = .ok claims ∧
      Run (Step sample_sender) State.initial labels s ∧
      .begin_snapshot claims (some 0) ∈ labels ∧
      ∃ row ∈ pending s.db, RowRefused sample_sender row := by
  obtain ⟨labels, s, call, p, s', hrun, hmem, hclaims, hdb, hstep⟩ := run_sample
    (show 10000 ≤ 16777216 by decide)
  refine ⟨_, _, _, s', enumerate_sample (show 0 < 10000 by decide) (by decide), hrun.snoc hstep,
    List.mem_append_left _ hmem, oversized_row hrun hstep ?_⟩
  have hsize := sample_size (show 10000 ≤ 16777216 by decide)
  have hmax : MAX_EVENT_BYTES = 1000000 := rfl
  rw [SizeMet, hclaims, hdb]
  exact not_le.mpr (lt_of_lt_of_le (by rw [hmax]; decide) hsize)

end F2bguard.Sender
