/-
The sender's active claims and the payloads it has written.

Locally a claim belongs to a pair `(jail, ip)`, on the wire to an identity
`(jail, ban_id)`. The table of claims is nevertheless a copy of what a receiver makes of the
payloads: folding them gives the active rows (`Mirrors`). A snapshot reads identities before
its transaction. Its expected number makes sure that what it read is still true, so an
identity that was released stays released (`Retired`).
-/
import F2bguard.Identities
import F2bguard.Fence

set_option autoImplicit false

namespace F2bguard.Sender

open F2bguard.PyText F2bguard.PyJson F2bguard.Ipaddress F2bguard.Uuid F2bguard.Claims
open F2bguard.Tables F2bguard.Runs F2bguard.Lifecycle

/-! ## Commands

The system of `SenderRuns` with what the programs around the store do: the snapshot command reads
the last number before it asks Fail2Ban and hands it on, and `uuid4` never returns a value twice.
-/

/-- A sender and the UUIDs that were drawn. The latter is not kept anywhere; it is what "new"
refers to. -/
structure World where
  state : State
  drawn : List Text

def World.initial : World := ⟨State.initial, []⟩

/-- The snapshot command passes what `enumerate_permanent_jails` returned and the number it
read before. -/
def Label.Commanded (config : SenderConfig) (db : DB) : Label → Prop
  | .begin_snapshot claims expected_seq =>
      (∃ runner, enumerate_permanent_jails config runner = .ok claims) ∧
        ∃ n ≤ db.seq, expected_seq = some n
  | _ => True

/-- Steps of the commands and of the worker; UUIDs are new when they are drawn. -/
inductive CommandStep (env : Env) (config : SenderConfig) : World → Label → World → Prop
  | step {w : World} {a : Label} {s : State} (h : Step env w.state a s)
      (hcommanded : a.Commanded config w.state.db) (hfresh : ∀ u ∈ a.drawn, u ∉ w.drawn) :
      CommandStep env config w a ⟨s, a.drawn ++ w.drawn⟩

theorem Label.Commanded.unnamed {config : SenderConfig} {db : DB} {a : Label}
    (h : a.Commanded config db) : a.Unnamed := by
  cases a with
  | begin_snapshot claims expected_seq =>
    obtain ⟨⟨runner, hclaims⟩, -⟩ := h
    exact fun claim hclaim => (enumerate_spec hclaims claim hclaim).ban_id
  | _ => trivial

/-! ## Active rows

One payload changes the table and the fold in the same way: an event turns the row of its pair
over, a snapshot replaces all of them. -/

/-- The claims a receiver has after the payloads of a log. -/
def folded (log : List Payload) : Store.ClaimKey → Option Store.ClaimValue :=
  applyAll (fun _ => none) (log.flatMap Payload.changes)

/-- An active row under its identity. Payloads make permanent claims that do not expire. -/
def Active (db : DB) (k : Store.ClaimKey) (v : Store.ClaimValue) : Prop :=
  ∃ r ∈ db.claims.rows, r.active = true ∧ r.ban_key = k ∧ v = ⟨r.ip, 1, none⟩

/-- The rows that are active are the fold of the log. Inactive rows are no claims of the receiver.
-/
def Mirrors (log : List Payload) (db : DB) : Prop :=
  ∀ k v, folded log k = some v ↔ Active db k v

theorem folded_snoc (log : List Payload) (p : Payload) :
    folded (log ++ [p]) = applyAll (folded log) p.changes := by
  rw [folded, List.flatMap_append, applyAll_append, List.flatMap_singleton]
  rfl

theorem claim_of_self {db : DB} {r : ClaimRow} (hr : r ∈ db.claims.rows) :
    claim_of db r.key = some r := claim_of_eq_some.mpr ⟨hr, rfl⟩

theorem active_recorded_ban {env : Env} {db db' : DB} {jail ip : Text} {now : ℚ}
    {ban_uuid event_uuid : Uuid4} {p : EventPayload}
    (h : Recorded env db .ban jail ip now ban_uuid event_uuid p db') (k : Store.ClaimKey)
    (v : Store.ClaimValue) :
    Active db' k v ↔
      if k = (jail, p.ban_id) then v = ⟨ip, 1, none⟩ else Active db k v := by
  have hnew : claim_of db' (jail, ip) = some ⟨jail, ip, p.ban_id, true⟩ := by
    rw [h.claims, if_pos rfl]
    rfl
  have hinactive := h.ban_id.1
  constructor
  · rintro ⟨r, hr, hactive, rfl, rfl⟩
    have hself := claim_of_self hr
    split
    · rename_i hkey
      rw [Table.eq_of_key claims_ban_unique hr (claim_of_eq_some.mp hnew).1 hkey]
    · rename_i hkey
      rw [h.claims] at hself
      split at hself
      · cases hself
        exact absurd rfl hkey
      · exact ⟨r, (claim_of_eq_some.mp hself).1, hactive, rfl, rfl⟩
  · intro hif
    split at hif
    · rename_i hkey
      exact ⟨_, (claim_of_eq_some.mp hnew).1, rfl, hkey.symm, hif⟩
    · obtain ⟨r, hr, hactive, hkey, hv⟩ := hif
      have hself := claim_of_self hr
      -- the row of the pair was not active before
      have hpair : ¬ (jail, ip) = r.key := by
        intro hpair
        rw [is_active, hpair, hself, Option.any_some, hactive] at hinactive
        cases hinactive
      have hstays := h.claims r.key
      rw [if_neg hpair, hself] at hstays
      exact ⟨r, (claim_of_eq_some.mp hstays).1, hactive, hkey, hv⟩

theorem active_recorded_unban {env : Env} {db db' : DB} {jail ip : Text} {now : ℚ}
    {ban_uuid event_uuid : Uuid4} {p : EventPayload}
    (h : Recorded env db .unban jail ip now ban_uuid event_uuid p db') (k : Store.ClaimKey)
    (v : Store.ClaimValue) :
    Active db' k v ↔ k ≠ (jail, p.ban_id) ∧ Active db k v := by
  have hold : claim_of db (jail, ip) = some ⟨jail, ip, p.ban_id, true⟩ := h.ban_id
  constructor
  · rintro ⟨r, hr, hactive, rfl, rfl⟩
    have hself := claim_of_self hr
    rw [h.claims] at hself
    split at hself
    · cases hself
      cases hactive
    · rename_i hpair
      have hmem := (claim_of_eq_some.mp hself).1
      refine ⟨fun hkey => hpair ?_, r, hmem, hactive, rfl, rfl⟩
      rw [Table.eq_of_key claims_ban_unique hmem (claim_of_eq_some.mp hold).1 hkey]
      rfl
  · rintro ⟨hne, r, hr, hactive, hkey, hv⟩
    have hself := claim_of_self hr
    have hpair : ¬ (jail, ip) = r.key := by
      intro hpair
      rw [← hpair, hold] at hself
      cases hself
      exact hne hkey.symm
    have hstays := h.claims r.key
    rw [if_neg hpair, hself] at hstays
    exact ⟨r, (claim_of_eq_some.mp hstays).1, hactive, hkey, hv⟩

theorem active_committed {env : Env} {db db' : DB} {normalized : List SnapshotClaim}
    {expected_seq : Option ℕ} {now : ℚ} {snapshot_uuid : Uuid4} {p : SnapshotPayload}
    (h : Committed env db normalized expected_seq now snapshot_uuid p db') (k : Store.ClaimKey)
    (v : Store.ClaimValue) :
    Active db' k v ↔ (k, v) ∈ (p.claims.map SnapshotClaim.claim).map Store.Claim.entry := by
  rw [List.map_map, List.mem_map]
  constructor
  · rintro ⟨r, hr, hactive, rfl, rfl⟩
    have hself := claim_of_self hr
    by_cases hmem : r.key ∈ normalized.map SnapshotClaim.pair
    · obtain ⟨c, hc, hpair⟩ := List.mem_map.mp (h.pairs.mem_iff.mpr hmem)
      have hrow := h.activated c hc
      rw [hpair, hself] at hrow
      cases hrow
      exact ⟨c, hc, rfl⟩
    · rw [h.others _ hmem] at hself
      obtain ⟨r', -, rfl⟩ := Option.map_eq_some_iff.mp hself
      cases hactive
  · rintro ⟨c, hc, hentry⟩
    obtain ⟨rfl, rfl⟩ := Prod.mk.inj hentry
    exact ⟨_, (claim_of_eq_some.mp (h.activated c hc)).1, rfl, rfl, rfl⟩

theorem Mirrors.after_recorded {env : Env} {log : List Payload} {db db' : DB} {op : Op}
    {jail ip : Text} {now : ℚ} {ban_uuid event_uuid : Uuid4} {p : EventPayload}
    (hmirrors : Mirrors log db) (h : Recorded env db op jail ip now ban_uuid event_uuid p db') :
    Mirrors (log ++ [.event p]) db' := by
  have hop : p.event.op = op := by rw [h.payload]; rfl
  have hjail : p.jail = jail := by rw [h.payload]
  have hip : p.ip = ip := by rw [h.payload]
  intro k v
  have hchanges : (Payload.event p).changes = [Store.Event.change p.event] := rfl
  rw [folded_snoc, hchanges, applyAll_cons, applyAll_nil, Store.Event.change, hop]
  cases op with
  | ban =>
    rw [active_recorded_ban h]
    dsimp only [Change.apply]
    rw [Function.update_apply]
    change (if k = (p.jail, p.ban_id) then some ⟨p.ip, 1, none⟩ else folded log k) = some v ↔ _
    rw [hjail, hip]
    split
    · rw [Option.some.injEq]
      exact eq_comm
    · exact hmirrors k v
  | unban =>
    rw [active_recorded_unban h]
    dsimp only [Change.apply]
    rw [Function.update_apply]
    change (if k = (p.jail, p.ban_id) then none else folded log k) = some v ↔ _
    rw [hjail]
    split
    · rename_i hkey
      simp [hkey]
    · rename_i hkey
      rw [hmirrors k v]
      exact (and_iff_right hkey).symm

theorem Mirrors.after_committed {env : Env} {log : List Payload} {db db' : DB}
    {normalized : List SnapshotClaim} {expected_seq : Option ℕ} {now : ℚ} {snapshot_uuid : Uuid4}
    {p : SnapshotPayload} (hpairs : (normalized.map SnapshotClaim.pair).Nodup)
    (h : Committed env db normalized expected_seq now snapshot_uuid p db') :
    Mirrors (log ++ [.snapshot p]) db' := by
  intro k v
  have hchanges : (Payload.snapshot p).changes =
      [.replace ((p.claims.map SnapshotClaim.claim).map Store.Claim.entry)] := rfl
  have hkeys : (((p.claims.map SnapshotClaim.claim).map Store.Claim.entry).map Prod.fst).Nodup := by
    rw [List.map_map, List.map_map]
    exact h.keys_nodup hpairs
  rw [folded_snoc, hchanges, applyAll_cons, applyAll_nil, Change.apply, ofEntries_eq_some hkeys,
    active_committed h]

/-! ## Identities that were released

A command may have read an identity while it was active and commit after its release. Its expected
number is below the last one then, as the release has taken a number, so it is refused. -/

/-- The identity is that of an active row. -/
def Held (db : DB) (ban_id : Text) : Prop :=
  ∃ r ∈ db.claims.rows, r.active = true ∧ r.ban_id = ban_id

/-- The calls in progress know a number that is not beyond the last one. -/
def Fenced (s : State) : Prop := ∀ call ∈ s.calls, ∃ n ≤ s.db.seq, call.expected_seq = some n

/-- The identity was drawn, no row has it active, and a call that has read it while it was
active will be refused. -/
structure Retired (ban_id : Text) (w : World) : Prop where
  drawn : ban_id ∈ w.drawn
  released : ¬ Held w.state.db ban_id
  calls : ∀ call ∈ w.state.calls, ∀ c ∈ call.normalized, c.ban_id = ban_id →
    ∀ n, call.expected_seq = some n → n < w.state.db.seq

/-- Everything that holds of a world, for the payloads issued and the numbers marked so far. -/
structure Tracked (env : Env) (log : List Payload) (done : List ℕ) (w : World) : Prop where
  sound : Sound env log done w.state
  distinct : Distinct w.drawn log w.state
  fenced : Fenced w.state
  mirrors : Mirrors log w.state.db
  capacity : (pending w.state.db).length ≤ env.max_pending

theorem Inserted.pending {env : Env} {db db' : DB} {p : Payload} {now : ℚ}
    (h : Inserted env db p now db') : (pending db').length = (pending db).length + 1 := by
  rw [Sender.pending, h.outbox, List.filter_append, List.length_append]
  rfl

/-! ## What a step does

Seen from the claims a step is one of three things. What a command in progress has read has one of
two origins, the active row of its pair or a UUID drawn for it. -/

/-- A step leaves claims and numbers alone, or it writes an event, or a snapshot. -/
inductive Effect (env : Env) (s : State) (a : Label) (s' : State) : Prop
  | quiet (hissued : a.issued = none) (hclaims : s'.db.claims = s.db.claims)
      (hpending : (pending s'.db).length ≤ (pending s.db).length)
  | recorded {op : Op} {jail ip : Text} {now : ℚ} {ban_uuid event_uuid : Uuid4} {p : EventPayload}
      (h : Recorded env s.db op jail ip now ban_uuid event_uuid p s'.db)
      (hissued : a.issued = some (.event p)) (hcalls : s'.calls = s.calls)
      (hdrawn : op = .ban → ban_uuid.text ∈ a.drawn)
  | committed {before after : List SnapshotCall} {call : SnapshotCall} {now : ℚ}
      {snapshot_uuid : Uuid4} {p : SnapshotPayload} (hbefore : s.calls = before ++ call :: after)
      (hcall : call.Sound)
      (h : Committed env s.db call.normalized call.expected_seq now snapshot_uuid p s'.db)
      (hissued : a.issued = some (.snapshot p)) (hafter : s'.calls = before ++ after)

/-- Rows do not become pending again. -/
theorem pending_map_le (rows : List OutboxRow) {f : OutboxRow → OutboxRow}
    (hf : ∀ r, (f r).delivered_at.isNone = true → r.delivered_at.isNone = true) :
    ((rows.map f).filter (fun r => r.delivered_at.isNone)).length ≤
      (rows.filter (fun r => r.delivered_at.isNone)).length := by
  rw [← List.countP_eq_length_filter, ← List.countP_eq_length_filter, List.countP_map]
  exact List.countP_mono_left (fun r _ => hf r)

theorem effect {env : Env} {log : List Payload} {done : List ℕ} {s s' : State} {a : Label}
    (hsound : Sound env log done s) (hstep : Step env s a s') : Effect env s a s' := by
  have hclaims := claims_of_not_issued hsound hstep
  cases hstep with
  | @enqueue op jail ip now ban_uuid event_uuid result db hcall =>
    rcases enqueue_outcome hsound.claims hcall with ⟨e, rfl, rfl⟩ | ⟨op', ip', -, -, -, -, hout⟩
    · exact Effect.quiet rfl rfl le_rfl
    · cases hout with
      | refused e => exact Effect.quiet rfl rfl le_rfl
      | repeated hrep => exact Effect.quiet rfl rfl le_rfl
      | @recorded p db' hrec =>
        refine Effect.recorded hrec rfl rfl ?_
        rintro rfl
        have hop : p.op = .ban := by rw [hrec.payload]
        simp [Label.drawn, hop]
  | @commit before after call now snapshot_uuid result db hcalls hrest hcommit =>
    have hcall : call.Sound := hsound.calls call (by rw [hcalls]; simp)
    rcases commit_outcome hcall.pairs hcommit with ⟨e, rfl, rfl⟩ | ⟨p, rfl, hcom⟩
    · exact Effect.quiet rfl rfl le_rfl
    · exact Effect.committed hcalls hcall hcom rfl rfl
  | prune_delivered =>
    -- pruning and marking do not touch the claims
    refine Effect.quiet rfl rfl ?_
    exact (List.Sublist.filter _ List.filter_sublist).length_le
  | @finish row now delivered hsending =>
    refine Effect.quiet rfl (hclaims rfl) ?_
    cases delivered with
    | true =>
      refine pending_map_le s.db.outbox.rows (fun r hr => ?_)
      split at hr
      · cases hr
      · exact hr
    | false =>
      refine pending_map_le s.db.outbox.rows (fun r hr => ?_)
      split at hr
      · exact hr
      · exact hr
  | _ => exact Effect.quiet rfl rfl le_rfl

/-- Where the calls after a step come from: a call began, or a call went on. -/
inductive CallFrom (s : State) (a : Label) (call' : SnapshotCall) : Prop
  | begun (h : a = .begin_snapshot call'.claims call'.expected_seq) (hempty : call'.normalized = [])
  | kept {call : SnapshotCall} (hcall : call ∈ s.calls)
      (hexpected : call'.expected_seq = call.expected_seq)
      (hnormalized : ∀ c ∈ call'.normalized, c ∈ call.normalized ∨
        ∃ u ∈ a.drawn, c.ban_id = (active_claim s.db c.pair).elim u ClaimRow.ban_id)

theorem call_from {env : Env} {log : List Payload} {done : List ℕ} {drawn : List Text}
    {s s' : State} {a : Label} (hsound : Sound env log done s) (hdistinct : Distinct drawn log s)
    (hstep : Step env s a s') : ∀ call' ∈ s'.calls, CallFrom s a call' := by
  have hsame : ∀ call' ∈ s.calls, CallFrom s a call' :=
    fun call' hcall' => CallFrom.kept hcall' rfl (fun c hc => Or.inl hc)
  cases hstep with
  | begin_snapshot claims expected_seq =>
    intro call' hcall'
    rcases List.mem_cons.mp hcall' with rfl | hcall'
    · exact CallFrom.begun rfl rfl
    · exact hsame call' hcall'
  | @normalize before after call claim rest normalized ban_uuid hcalls hrest hn =>
    have hmem : call ∈ s.calls := by
      rw [hcalls]
      simp
    have hnone : claim.ban_id = none := by
      obtain ⟨read, hread, -⟩ := (hsound.calls call hmem).progress
      refine hdistinct.unnamed call hmem claim ?_
      rw [hread, hrest]
      simp
    rw [hcalls, List.forall_mem_append, List.forall_mem_cons] at hsame
    rw [List.forall_mem_append, List.forall_mem_cons]
    refine ⟨hsame.1, ?_, hsame.2.2⟩
    -- the turn reads the identity of the active row or takes the drawn one
    obtain ⟨c, rfl, hc⟩ := normalize_claim_spec hsound.claims hn
    refine CallFrom.kept hmem rfl (fun x hx => ?_)
    rcases List.mem_append.mp hx with hx | hx
    · exact Or.inl hx
    · rw [List.mem_singleton.mp hx]
      exact Or.inr ⟨ban_uuid.text, List.mem_singleton.mpr rfl, hc.ban_id hnone⟩
  | @commit before after call now snapshot_uuid result db hcalls hrest hcommit =>
    rw [hcalls, List.forall_mem_append, List.forall_mem_cons] at hsame
    exact List.forall_mem_append.mpr ⟨hsame.1, hsame.2.2⟩
  | @abandon before after call hcalls =>
    rw [hcalls, List.forall_mem_append, List.forall_mem_cons] at hsame
    exact List.forall_mem_append.mpr ⟨hsame.1, hsame.2.2⟩
  | _ => exact hsame

/-- A payload that was written makes the number one higher. -/
theorem seq_after_step {env : Env} {log : List Payload} {done : List ℕ} {s s' : State} {a : Label}
    (hsound : Sound env log done s) (hstep : Step env s a s') :
    s'.db.seq = s.db.seq + a.issued.toList.length := by
  rw [(sound_step hsound hstep).seq_eq_length, hsound.seq_eq_length, List.length_append]

theorem Fenced.after_step {env : Env} {config : SenderConfig} {log : List Payload} {done : List ℕ}
    {drawn : List Text} {s s' : State} {a : Label} (hfenced : Fenced s)
    (hsound : Sound env log done s) (hdistinct : Distinct drawn log s) (hstep : Step env s a s')
    (hcommanded : a.Commanded config s.db) : Fenced s' := by
  have hseq := seq_after_step hsound hstep
  intro call' hcall'
  cases call_from hsound hdistinct hstep call' hcall' with
  | begun hbegun hempty =>
    subst hbegun
    obtain ⟨-, n, hn, hexpected⟩ := hcommanded
    exact ⟨n, by omega, hexpected⟩
  | kept hcall hexpected hnormalized =>
    obtain ⟨n, hn, hsome⟩ := hfenced _ hcall
    exact ⟨n, by omega, hexpected.trans hsome⟩

/-! ## The invariant

Each part is kept by its own lemma, and all of them by one induction over the run. -/

section Tracked

variable {env : Env} {config : SenderConfig} {log : List Payload} {done : List ℕ}

theorem tracked_initial (env : Env) : Tracked env [] [] World.initial := by
  refine ⟨sound_initial env, Distinct.initial _, fun call hcall => (by cases hcall), ?_,
    Nat.zero_le _⟩
  intro k v
  constructor
  · intro h
    cases h
  · rintro ⟨r, hr, -⟩
    cases hr

theorem tracked_step {w w' : World} {a : Label} (h : Tracked env log done w)
    (hstep : CommandStep env config w a w') :
    Tracked env (log ++ a.issued.toList) (done ++ a.delivered.toList) w' := by
  cases hstep with
  | @step s hstep hcommanded hfresh =>
    refine ⟨sound_step h.sound hstep,
      distinct_step h.sound h.distinct hstep hcommanded.unnamed hfresh,
      h.fenced.after_step h.sound h.distinct hstep hcommanded, ?_, ?_⟩
    · cases effect h.sound hstep with
      | quiet hissued hclaims hpending =>
        rw [hissued, Option.toList_none, List.append_nil]
        intro k v
        rw [h.mirrors k v, Active, Active, hclaims]
      | recorded hrec hissued hcalls hdrawn =>
        rw [hissued]
        exact h.mirrors.after_recorded hrec
      | committed hbefore hcall hcom hissued hafter =>
        rw [hissued]
        exact Mirrors.after_committed hcall.pairs hcom
    · cases effect h.sound hstep with
      | quiet hissued hclaims hpending => exact hpending.trans h.capacity
      | recorded hrec hissued hcalls hdrawn =>
        rw [hrec.inserted.pending]
        exact hrec.inserted.capacity
      | committed hbefore hcall hcom hissued hafter =>
        rw [hcom.inserted.pending]
        exact hcom.inserted.capacity

theorem tracked_run {labels : List Label} {w : World}
    (h : Run (CommandStep env config) World.initial labels w) :
    Tracked env (issued labels) (delivered labels) w := by
  refine Run.invariant (P := fun labels w => Tracked env (issued labels) (delivered labels) w)
    (tracked_initial env) ?_ h
  intro labels w₁ a w₂ _ htracked hstep
  rw [issued_snoc, delivered_snoc]
  exact tracked_step htracked hstep

/-! ## Released identities stay released

The step in which an identity is released makes it `Retired`, and no later step undoes that. -/

/-- An identity that is active after a step was active before, or was drawn in it, or a call
that commits has read it. -/
theorem Effect.held {s s' : State} {a : Label} (heffect : Effect env s a s') {ban_id : Text}
    (hheld : Held s'.db ban_id) :
    Held s.db ban_id ∨ ban_id ∈ a.drawn ∨
      ∃ call ∈ s.calls, (∃ c ∈ call.normalized, c.ban_id = ban_id) ∧
        ∀ n, call.expected_seq = some n → s.db.seq = n := by
  obtain ⟨r, hr, hactive, rfl⟩ := hheld
  have hself := claim_of_self hr
  cases heffect with
  | quiet hissued hclaims hpending =>
    rw [hclaims] at hr
    exact Or.inl ⟨r, hr, hactive, rfl⟩
  | @recorded op jail ip now ban_uuid event_uuid p hrec hissued hcalls hdrawn =>
    rw [hrec.claims] at hself
    split at hself
    · cases hself
      have hop : op = .ban := of_decide_eq_true hactive
      subst hop
      refine Or.inr (Or.inl ?_)
      rw [hrec.ban_id.2]
      exact hdrawn rfl
    · exact Or.inl ⟨r, (claim_of_eq_some.mp hself).1, hactive, rfl⟩
  | @committed before after call now snapshot_uuid p hbefore hcall hcom hissued hafter =>
    -- the snapshot has activated the pair, or left it as it was
    by_cases hmem : r.key ∈ call.normalized.map SnapshotClaim.pair
    · obtain ⟨c, hc, hpair⟩ := List.mem_map.mp (hcom.pairs.mem_iff.mpr hmem)
      have hrow := hcom.activated c hc
      rw [hpair, hself] at hrow
      cases hrow
      obtain ⟨c', hc', rfl⟩ := List.mem_map.mp (hcom.claims.mem_iff.mp hc)
      rw [reuse_ban_id_eq]
      cases hrow : active_claim s.db c'.pair with
      | some r' =>
        obtain ⟨hr', hactive'⟩ := active_claim_eq_some.mp hrow
        exact Or.inl ⟨r', (claim_of_eq_some.mp hr').1, hactive', rfl⟩
      | none =>
        exact Or.inr (Or.inr ⟨call, by rw [hbefore]; simp, ⟨c', hc', rfl⟩, hcom.expected⟩)
    · rw [hcom.others _ hmem] at hself
      obtain ⟨r', -, rfl⟩ := Option.map_eq_some_iff.mp hself
      cases hactive

theorem Held.drawn {drawn : List Text} {s : State} (hdistinct : Distinct drawn log s)
    {ban_id : Text} (h : Held s.db ban_id) : ban_id ∈ drawn := by
  obtain ⟨r, hr, -, rfl⟩ := h
  exact hdistinct.bound _ _ (Bound.claim (claim_of_self hr))

theorem Retired.after_step {w w' : World} {a : Label} {ban_id : Text} (h : Retired ban_id w)
    (htracked : Tracked env log done w) (hstep : CommandStep env config w a w') :
    Retired ban_id w' := by
  cases hstep with
  | @step s hstep hcommanded hfresh =>
    have hseq := seq_after_step htracked.sound hstep
    have hnew : ban_id ∉ a.drawn := fun hdrawn => hfresh ban_id hdrawn h.drawn
    refine ⟨List.mem_append_right _ h.drawn, ?_, ?_⟩
    · intro hheld
      rcases (effect htracked.sound hstep).held hheld with
        hbefore | hdrawn | ⟨call, hcall, ⟨c, hc, hban⟩, hexpected⟩
      · exact h.released hbefore
      · exact hnew hdrawn
      · -- a call that has read the identity knows an older number
        obtain ⟨n, -, hsome⟩ := htracked.fenced call hcall
        have hlt := h.calls call hcall c hc hban n hsome
        have := hexpected n hsome
        omega
    · intro call' hcall' c hc hban n hsome
      -- the calls after the step and what they may have read
      cases call_from htracked.sound htracked.distinct hstep call' hcall' with
      | begun hbegun hempty =>
        rw [hempty] at hc
        cases hc
      | kept hcall hexpected hnormalized =>
        rcases hnormalized c hc with hold | ⟨u, hu, hread⟩
        · have hlt := h.calls _ hcall c hold hban n (hexpected.symm.trans hsome)
          change n < s.db.seq
          omega
        · exfalso
          cases hrow : active_claim w.state.db c.pair with
          | none =>
            rw [hrow] at hread
            rw [← hban, hread] at hnew
            exact hnew hu
          | some r =>
            rw [hrow] at hread
            obtain ⟨hr, hactive⟩ := active_claim_eq_some.mp hrow
            exact h.released ⟨r, (claim_of_eq_some.mp hr).1, hactive, hread.symm.trans hban⟩

/-- The step in which an identity is released. -/
theorem Held.after_step {w w' : World} {a : Label} {ban_id : Text} (h : Held w.state.db ban_id)
    (htracked : Tracked env log done w) (hstep : CommandStep env config w a w') :
    Held w'.state.db ban_id ∨ Retired ban_id w' := by
  by_cases hheld : Held w'.state.db ban_id
  · exact Or.inl hheld
  right
  cases hstep with
  | @step s hstep hcommanded hfresh =>
    have hseq := seq_after_step htracked.sound hstep
    refine ⟨List.mem_append_right _ (h.drawn htracked.distinct), hheld, ?_⟩
    -- only a payload releases, and it takes a number the calls do not know
    have hissued : a.issued ≠ none := by
      intro hnone
      have hclaims := claims_of_not_issued htracked.sound hstep hnone
      refine hheld ?_
      rw [Held, hclaims]
      exact h
    obtain ⟨p, hp⟩ := Option.ne_none_iff_exists'.mp hissued
    rw [hp] at hseq
    intro call' hcall' c hc hban n hsome
    cases call_from htracked.sound htracked.distinct hstep call' hcall' with
    | begun hbegun hempty =>
      rw [hempty] at hc
      cases hc
    | kept hcall hexpected hnormalized =>
      obtain ⟨m, hm, hmsome⟩ := htracked.fenced _ hcall
      rw [hexpected, hmsome] at hsome
      cases hsome
      rw [Option.toList_some, List.length_singleton] at hseq
      change n < s.db.seq
      omega

theorem retired_run {labels₀ labels : List Label} {w w' : World} {ban_id : Text}
    (h₀ : Run (CommandStep env config) World.initial labels₀ w)
    (h : Run (CommandStep env config) w labels w')
    (hstart : Held w.state.db ban_id ∨ Retired ban_id w) :
    (Held w'.state.db ban_id ∨ Retired ban_id w') ∧ (Retired ban_id w → Retired ban_id w') := by
  refine Run.invariant (P := fun _ w' =>
    (Held w'.state.db ban_id ∨ Retired ban_id w') ∧ (Retired ban_id w → Retired ban_id w'))
    ⟨hstart, id⟩ ?_ h
  rintro labels w₁ a w₂ hrun ⟨hor, himp⟩ hstep
  have htracked := tracked_run (h₀.append hrun)
  refine ⟨?_, fun hretired => (himp hretired).after_step htracked hstep⟩
  rcases hor with hheld | hretired
  · exact hheld.after_step htracked hstep
  · exact Or.inr (hretired.after_step htracked hstep)

/-- **The active claims are the fold of the payloads.** In every state of every run of commands
and worker: the numbers of the payloads count up from one; the fold of the payloads is the table
of active claims; a pair has at most one active identity; no more than `max_pending` rows wait;
and an identity that was active and was released is never active again. -/
theorem active_claims_are_fold (env : Env) (config : SenderConfig) (labels : List Label)
    (w : World) (h : Run (CommandStep env config) World.initial labels w) :
    (issued labels).map Payload.seq = List.range' 1 w.state.db.seq ∧
      (∀ k v, folded (issued labels) k = some v ↔ Active w.state.db k v) ∧
      (∀ r ∈ w.state.db.claims.rows, ∀ r' ∈ w.state.db.claims.rows, r.active = true →
        r'.active = true → r.jail = r'.jail → r.ip = r'.ip → r.ban_id = r'.ban_id) ∧
      (pending w.state.db).length ≤ env.max_pending ∧
      ∀ ban_id, Held w.state.db ban_id → ∀ labels₁ w₁, Run (CommandStep env config) w labels₁ w₁ →
        ¬ Held w₁.state.db ban_id → ∀ labels₂ w₂, Run (CommandStep env config) w₁ labels₂ w₂ →
          ¬ Held w₂.state.db ban_id := by
  have htracked := tracked_run h
  refine ⟨htracked.sound.seqs, htracked.mirrors, ?_, htracked.capacity, ?_⟩
  · intro r hr r' hr' _ _ hjail hip
    rw [Table.eq_of_key claims_pair_unique hr hr' (Prod.ext hjail hip)]
  · intro ban_id hheld labels₁ w₁ h₁ hreleased labels₂ w₂ h₂
    have hretired := (retired_run h h₁ (Or.inl hheld)).1.resolve_left hreleased
    exact ((retired_run (h.append h₁) h₂ (Or.inr hretired)).2 hretired).released

end Tracked

/-! ## A snapshot, a race and a release

An address is banned and a snapshot lists it together with a second one. While a second snapshot
command is under way a hook releases the first address, so that command is rolled back; then the
address is banned again, under a new identity. -/

def sample_claim (ip : String) : EnumeratedClaim := { jail := "sshd".toList, ip := ip.toList }

def sample_named (ip : String) (ban_uuid : Uuid4) : SnapshotClaim :=
  ⟨"sshd".toList, ban_uuid.text, ip.toList⟩

/-- The first snapshot: the first address keeps its identity, the second one gets a new one. -/
def sample_both : List SnapshotClaim :=
  [sample_named "203.0.113.7" sample_uuid, sample_named "203.0.113.8" (Uuid4.nth 1)]

/-- The databases after the snapshot, after the release and after the ban that follows it. -/
def sample_listed_db : DB :=
  (commit_snapshot sample_sender sample_banned.db sample_both (some 1) 2 sample_snapshot_uuid).2

def sample_released_db : DB :=
  (enqueue sample_sender sample_listed_db "unban".toList "sshd".toList "203.0.113.7".toList 3
    (Uuid4.nth 2) (Uuid4.nth 3)).2

def sample_again_db : DB :=
  (enqueue sample_sender sample_released_db "ban".toList "sshd".toList "203.0.113.7".toList 4
    (Uuid4.nth 6) (Uuid4.nth 7)).2

def sample_world (db : DB) (drawn : List Uuid4) : World := ⟨⟨db, [], none⟩, drawn.map Uuid4.text⟩

/-- A step of the run, from the UUIDs drawn before it to those drawn after it. -/
theorem sample_step (drawn drawn' : List Uuid4) {s s' : State} {a : Label}
    (h : Step sample_sender s a s') (hcommanded : a.Commanded (sample_config "sshd" valid_sshd) s.db)
    (hdrawn : a.drawn ++ drawn.map Uuid4.text = drawn'.map Uuid4.text)
    (hfresh : ∀ u ∈ a.drawn, u ∉ drawn.map Uuid4.text) :
    CommandStep sample_sender (sample_config "sshd" valid_sshd) ⟨s, drawn.map Uuid4.text⟩ a
      ⟨s', drawn'.map Uuid4.text⟩ := by
  rw [← hdrawn]
  exact CommandStep.step h hcommanded hfresh

/-- What was drawn for the ban and the snapshot. -/
def sample_drawn : List Uuid4 :=
  [sample_snapshot_uuid, Uuid4.nth 1, Uuid4.nth 0, sample_uuid, sample_uuid']

/-- The ban and the snapshot. -/
theorem sample_listed_run : ∃ labels,
    Run (CommandStep sample_sender (sample_config "sshd" valid_sshd)) World.initial labels
      (sample_world sample_listed_db sample_drawn) := by
  let claims : List EnumeratedClaim := [sample_claim "203.0.113.7", sample_claim "203.0.113.8"]
  have hasked : enumerate_permanent_jails (sample_config "sshd" valid_sshd) (fun _ => some ⟨0,
      ban_list ["203.0.113.7".toList, "203.0.113.8".toList]⟩) = .ok claims := by decide +kernel
  have hban := sample_step [] (sample_drawn.drop 3) sample_banned_step trivial (by decide) (by decide)
  have hbegin := sample_step (sample_drawn.drop 3) (sample_drawn.drop 3)
    (Step.begin_snapshot sample_banned claims (some 1)) ⟨⟨_, hasked⟩, 1, by decide, rfl⟩ rfl (by decide)
  have hfirst := sample_step (sample_drawn.drop 3) (sample_drawn.drop 2) (@Step.normalize sample_sender
    { sample_banned with calls := [⟨claims, some 1, claims, []⟩] } [] [] _ _ _
    [sample_named "203.0.113.7" sample_uuid] (Uuid4.nth 0) rfl rfl (by decide +kernel)) trivial rfl
    (by decide +kernel)
  have hsecond := sample_step (sample_drawn.drop 2) (sample_drawn.drop 1) (@Step.normalize sample_sender
    { sample_banned with calls := [⟨claims, some 1, [sample_claim "203.0.113.8"],
      [sample_named "203.0.113.7" sample_uuid]⟩] } [] [] _ _ _ sample_both (Uuid4.nth 1) rfl rfl
    (by decide +kernel)) trivial rfl (by decide +kernel)
  have hcommit := sample_step (sample_drawn.drop 1) sample_drawn (@Step.commit sample_sender
    { sample_banned with calls := [⟨claims, some 1, [], sample_both⟩] } [] [] _ 2 sample_snapshot_uuid
    (.ok ⟨sample_snapshot_uuid.text, 2, sample_both⟩) sample_listed_db rfl rfl
    (Prod.ext (by decide +kernel) rfl)) trivial rfl (by decide +kernel)
  exact ⟨_, Run.cons hban (Run.cons hbegin (Run.cons hfirst (Run.cons hsecond (Run.single hcommit))))⟩

/-- The release, and the snapshot that it rolls back. -/
theorem sample_released_run : ∃ labels call, .commit call 4 (Uuid4.nth 5) (.error .snapshot_race) ∈ labels ∧
    Run (CommandStep sample_sender (sample_config "sshd" valid_sshd))
      (sample_world sample_listed_db sample_drawn) labels
      (sample_world sample_released_db ([Uuid4.nth 4, Uuid4.nth 3] ++ sample_drawn)) := by
  let claims : List EnumeratedClaim := [sample_claim "203.0.113.7"]
  let before : State := ⟨sample_listed_db, [⟨claims, some 2, claims, []⟩], none⟩
  let after : State := ⟨sample_released_db, [⟨claims, some 2, claims, []⟩], none⟩
  have hasked : enumerate_permanent_jails (sample_config "sshd" valid_sshd) (fun _ => some ⟨0,
      ban_list ["203.0.113.7".toList]⟩) = .ok claims := by decide +kernel
  have hbegin := sample_step sample_drawn sample_drawn
    (Step.begin_snapshot ⟨sample_listed_db, [], none⟩ claims (some 2))
    ⟨⟨_, hasked⟩, 2, by decide +kernel, rfl⟩ rfl (by decide +kernel)
  have hrelease := sample_step sample_drawn (Uuid4.nth 3 :: sample_drawn) (@Step.enqueue sample_sender
    before "unban".toList "sshd".toList "203.0.113.7".toList 3 (Uuid4.nth 2) (Uuid4.nth 3)
    (.ok (some ⟨(Uuid4.nth 3).text, 3, .unban, "sshd".toList, sample_uuid.text, "203.0.113.7".toList⟩))
    sample_released_db (Prod.ext (by decide +kernel) rfl)) trivial rfl (by decide +kernel)
  have hturn := sample_step (Uuid4.nth 3 :: sample_drawn) ([Uuid4.nth 4, Uuid4.nth 3] ++ sample_drawn)
    (@Step.normalize sample_sender after [] [] _ _ _ [sample_named "203.0.113.7" (Uuid4.nth 4)]
      (Uuid4.nth 4) rfl rfl (by decide +kernel)) trivial rfl (by decide +kernel)
  have hrace := sample_step ([Uuid4.nth 4, Uuid4.nth 3] ++ sample_drawn)
    ([Uuid4.nth 4, Uuid4.nth 3] ++ sample_drawn) (@Step.commit sample_sender
    { after with calls := [⟨claims, some 2, [], [sample_named "203.0.113.7" (Uuid4.nth 4)]⟩] } [] [] _ 4
    (Uuid4.nth 5) (.error .snapshot_race) sample_released_db rfl rfl rfl) trivial rfl (by decide)
  exact ⟨_, _, List.mem_cons_of_mem _ (List.mem_cons_of_mem _ (List.mem_cons_of_mem _
    List.mem_cons_self)), Run.cons hbegin (Run.cons hrelease (Run.cons hturn (Run.single hrace)))⟩

/-- The ban that follows it. -/
theorem sample_again_run : ∃ labels,
    Run (CommandStep sample_sender (sample_config "sshd" valid_sshd))
      (sample_world sample_released_db ([Uuid4.nth 4, Uuid4.nth 3] ++ sample_drawn)) labels
      (sample_world sample_again_db
        ([Uuid4.nth 6, Uuid4.nth 7, Uuid4.nth 4, Uuid4.nth 3] ++ sample_drawn)) :=
  ⟨_, Run.single (sample_step _ _ (@Step.enqueue sample_sender ⟨sample_released_db, [], none⟩
    "ban".toList "sshd".toList "203.0.113.7".toList 4 (Uuid4.nth 6) (Uuid4.nth 7)
    (.ok (some ⟨(Uuid4.nth 7).text, 4, .ban, "sshd".toList, (Uuid4.nth 6).text, "203.0.113.7".toList⟩))
    sample_again_db (Prod.ext (by decide +kernel) rfl)) trivial rfl (by decide +kernel))⟩

/-- In the whole run four numbers are issued, the fold of the payloads has the address under its new
identity, and the identity that was released is not active again. -/
theorem active_claims_are_fold_ban : ∃ labels w,
    Run (CommandStep sample_sender (sample_config "sshd" valid_sshd)) World.initial labels w ∧
    (∃ call, .commit call 4 (Uuid4.nth 5) (.error .snapshot_race) ∈ labels) ∧
    (issued labels).map Payload.seq = [1, 2, 3, 4] ∧
    folded (issued labels) ("sshd".toList, (Uuid4.nth 6).text) =
      some ⟨"203.0.113.7".toList, 1, none⟩ ∧
    ¬ Held w.state.db sample_uuid.text := by
  obtain ⟨labels, hlisted⟩ := sample_listed_run
  obtain ⟨labels₁, call, hraced, hreleased⟩ := sample_released_run
  obtain ⟨labels₂, hagain⟩ := sample_again_run
  have hrun := (hlisted.append hreleased).append hagain
  have hheld : Held sample_listed_db sample_uuid.text := by
    refine ⟨⟨"sshd".toList, "203.0.113.7".toList, sample_uuid.text, true⟩, ?_, rfl, rfl⟩
    decide +kernel
  have hgone : ¬ Held sample_released_db sample_uuid.text := by
    rintro ⟨r, hr, hactive, hid⟩
    have hnone : sample_released_db.claims.rows.all
        (fun r => !(r.active && decide (r.ban_id = sample_uuid.text))) = true := by decide +kernel
    have := List.all_eq_true.mp hnone r hr
    rw [hactive, hid] at this
    simp at this
  obtain ⟨hseqs, hfold, -⟩ := active_claims_are_fold sample_sender (sample_config "sshd" valid_sshd) _ _
    hrun
  have hretired := (active_claims_are_fold sample_sender (sample_config "sshd" valid_sshd) _ _
    hlisted).2.2.2.2 _ hheld _ _ hreleased hgone _ _ hagain
  refine ⟨_, _, hrun, ⟨call, ?_⟩, hseqs, (hfold _ _).mpr ?_, hretired⟩
  · exact List.mem_append_left _ (List.mem_append_right _ hraced)
  · refine ⟨⟨"sshd".toList, "203.0.113.7".toList, (Uuid4.nth 6).text, true⟩, ?_, rfl, rfl, rfl⟩
    decide +kernel

end F2bguard.Sender
