/-
`GuardHandler.do_GET` and `ClaimStore.client_status`.

The store runs in autocommit, so the three queries of `client_status` and the one of
`client_effective_count` each see a state of their own: other threads write, prune and enforce in
between. Still the figures fit together. A client never sees less than what it has been told before,
by a GET or by the reply to a write; and when the number in the answer is the one that is stored at
the end, nothing of the client's has changed since the first query and all figures are those of the
store at the end (`status_consistent`).
-/
import F2bguard.SettledTables
import F2bguard.CanonicalPayloads
import F2bguard.Truncation
import Mathlib.Data.Set.Card

set_option autoImplicit false

namespace F2bguard.Status

open F2bguard.PyText F2bguard.PyJson F2bguard.Ipaddress F2bguard.Networks F2bguard.Claims
open F2bguard.PfHelper F2bguard.HelperClient F2bguard.Enforcer F2bguard.EnforcerSteps
open F2bguard.Handler F2bguard.Runs
open F2bguard.Interleaving (Holder Written)
open F2bguard.Store (DB ClientState ClaimRow EnforcementState ApplyResult Served Call Request last_seq
  claim_count is_effective client_effective_ips restrict restrict_perform_other perform_outcome
  ensure_client_eq)

/-! ## `client_status`

Three queries, each with a transaction of its own. Read at one moment they give `client_status`;
`Step` below takes them one at a time. -/

/-- `SELECT last_seq,updated_at FROM client_state WHERE client_id=?` -/
def state_row (db : DB) (client_id : Text) : Option ClientState :=
  db.client_state.lookup ClientState.client_id client_id

/-- `COUNT(*) AS total` and the sum that is called `effective` -/
def totals (db : DB) (client_id : Text) (boundary : ℚ) : ℕ × ℕ :=
  (claim_count db client_id,
    (db.claims.rows.filter (fun r => r.client_id = client_id ∧ is_effective boundary r)).length)

/-- The dict that `client_status` returns. -/
structure ClientStatus where
  client_id : Text
  last_seq : ℕ
  claim_count : ℕ
  effective_claim_count : ℕ
  updated_at : Option ℚ
  last_attempt : Option ℚ
  last_success : Option ℚ
  last_error : Option Text
  deriving DecidableEq

/-- The dict for what the three queries returned. -/
def status_of (client_id : Text) (state : Option ClientState) (totals : ℕ × ℕ)
    (enforcement : EnforcementState) : ClientStatus where
  client_id
  last_seq := (state.map ClientState.last_seq).getD 0
  claim_count := totals.1
  effective_claim_count := totals.2
  updated_at := state.map ClientState.updated_at
  last_attempt := enforcement.last_attempt
  last_success := enforcement.last_success
  last_error := enforcement.last_error

/-- `client_status`, when nothing else happens meanwhile. -/
def client_status (db : DB) (client_id : Text) (boundary : ℚ) : ClientStatus :=
  status_of client_id (state_row db client_id) (totals db client_id boundary) db.enforcement_state

/-! ## `do_GET`

The answer is the dict without the number of effective claims, which counts rows, and with the
number of effective addresses, which the enforcer counts under its lock and with its whitelist. -/

/-- The body of the answer: `effective_claim_count` is popped, `effective_ip_count` is set. -/
structure StatusBody where
  client_id : Text
  last_seq : ℕ
  claim_count : ℕ
  updated_at : Option ℚ
  last_attempt : Option ℚ
  last_success : Option ℚ
  last_error : Option Text
  effective_ip_count : ℕ
  deriving DecidableEq

def status_body (status : ClientStatus) (count : ℕ) : StatusBody where
  client_id := status.client_id
  last_seq := status.last_seq
  claim_count := status.claim_count
  updated_at := status.updated_at
  last_attempt := status.last_attempt
  last_success := status.last_success
  last_error := status.last_error
  effective_ip_count := count

inductive Reply
  | ok (body : StatusBody)
  | error (response : Server.Response)

/-- The body of an answer with status 200. -/
def Reply.body? : Reply → Option StatusBody
  | .ok body => some body
  | .error _ => none

def unavailable (error : Text) : Reply := .error (Server.error_response 503 error)

/-- The end of `do_GET`, `none` when an exception escapes. -/
def get_response (status : ClientStatus) : Except Failed ℕ → Option Reply
  | .ok count => some (.ok (status_body status count))
  | .error (.enforcement_error error) => some (unavailable error.message)
  | .error .database => some (unavailable "enforcement state unavailable".toList)
  | .error .other => none

/-- What a GET meets: the clocks of the rate limiter and of `client_status`, whether SQLite fails in
`client_status`, and what the count after it meets. -/
structure GetMoment where
  monotonic : ℚ
  now : ℚ
  status_fails : Bool
  surroundings : Surroundings

/-- `do_GET`, once the client is known. -/
def get (client_id path : Text) (moment : GetMoment) (w : World) : Option Reply :=
  if path ≠ "/v1/status".toList then some (.error (Server.error_response 404 "not found".toList))
  else if moment.status_fails then some (unavailable "enforcement state unavailable".toList)
  else get_response (client_status w.db client_id moment.now)
    (client_effective_count moment.surroundings w client_id)

/-- `do_GET`, when nothing else happens meanwhile; the client is what `_authorize` returns. -/
def do_GET (service : Service) (fingerprint : Option Text) (path : Text) (moment : GetMoment)
    (w : Handler.State) : Option Reply × Handler.State :=
  match fingerprint.bind (clients_by_fingerprint service) with
  | none => (some (.error (Server.error_response 403 "unknown client certificate".toList)), w)
  | some client =>
      match allow service.requests_per_minute w.requests client.id moment.monotonic with
      | (false, requests) =>
          (some (.error (Server.error_response 429 "rate limit exceeded".toList)),
            { w with requests })
      | (true, requests) => (get client.id path moment w.toWorld, { w with requests })

/-! ## GETs beside the other threads

A GET only reads, so it adds a phase for each thread that answers one, and nothing to the state of
the server. -/

/-- Where a GET is, with what its queries have returned. -/
inductive Phase
  | idle
  | authorized (client : RegisteredClient)
  | stated (client : RegisteredClient) (state : Option ClientState)
  | totalled (client : RegisteredClient) (state : Option ClientState) (totals : ℕ × ℕ)
  | described (client : RegisteredClient) (status : ClientStatus)

/-- The client whose `client_status` is under way. -/
def Phase.querying : Phase → Option RegisteredClient
  | .authorized client => some client
  | .stated client _ => some client
  | .totalled client _ _ => some client
  | _ => none

/-- The threads that write, with the helper, and those that answer GETs. -/
structure State (τ γ : Type) where
  server : Interleaving.State τ
  gets : γ → Phase

inductive Label (τ γ : Type)
  | server (a : Interleaving.Label τ)
  | query (g : γ)
  /-- `counted` is the reading of the clock that the count was made with, if there was one -/
  | answered (g : γ) (client : RegisteredClient) (counted : Option ℚ) (reply : Option Reply)

def State.initial {τ γ : Type} (db : DB) (pf : PF) : State τ γ :=
  ⟨Interleaving.State.initial db pf, fun _ => .idle⟩

section Step

variable {τ γ : Type} [DecidableEq τ] [DecidableEq γ]

def State.goto (s : State τ γ) (g : γ) (phase : Phase) : State τ γ :=
  { s with gets := Function.update s.gets g phase }

/-- One step of the server, or of a GET. A GET that is refused before `client_status` reads nothing
and is left out. -/
inductive Step (service : Service) (outcomes : ℕ → Outcome) (s : State τ γ) :
    Label τ γ → State τ γ → Prop
  | server {a : Interleaving.Label τ} {server : Interleaving.State τ}
      (h : Interleaving.Step service outcomes s.server a server) :
      Step service outcomes s (.server a) { s with server }
  | authorize {g : γ} {client : RegisteredClient} {fingerprint : Text} (hidle : s.gets g = .idle)
      (hclient : clients_by_fingerprint service fingerprint = some client) :
      Step service outcomes s (.query g) (s.goto g (.authorized client))
  | state {g : γ} {client : RegisteredClient} (h : s.gets g = .authorized client) :
      Step service outcomes s (.query g)
        (s.goto g (.stated client (state_row s.server.db client.id)))
  | totals {g : γ} {client : RegisteredClient} {state : Option ClientState} (boundary : ℚ)
      (h : s.gets g = .stated client state) :
      Step service outcomes s (.query g)
        (s.goto g (.totalled client state (totals s.server.db client.id boundary)))
  | enforcement {g : γ} {client : RegisteredClient} {state : Option ClientState} {totals : ℕ × ℕ}
      (h : s.gets g = .totalled client state totals) :
      Step service outcomes s (.query g)
        (s.goto g (.described client
          (status_of client.id state totals s.server.db.enforcement_state)))
  /-- a query raises `sqlite3.Error` -/
  | fail {g : γ} {client : RegisteredClient} (h : (s.gets g).querying = some client) :
      Step service outcomes s
        (.answered g client none (some (unavailable "enforcement state unavailable".toList)))
        (s.goto g .idle)
  -- the count needs the lock of the enforcer
  | count {g : γ} {client : RegisteredClient} {status : ClientStatus} (surroundings : Surroundings)
      (h : s.gets g = .described client status) (hfree : s.server.holder = none) :
      Step service outcomes s
        (.answered g client (some surroundings.clock.counted)
          (get_response status (client_effective_count surroundings
            ⟨s.server.db, s.server.pf, s.server.last_index⟩ client.id)))
        (s.goto g .idle)

end Step

/-! ## What a client has

Two things can happen to the rows of a client from one state of the store to another: nothing, or
its number has grown. A prune removes rows of the histories only. -/

/-- The rows of a client, without its histories. -/
def client_part (db : DB) (c : Text) : Option ClientState × List ClaimRow :=
  (state_row db c, db.claims.rows.filter (fun r => r.client_id = c))

/-- The client's rows are the same, or its number has grown. -/
def Later (c : Text) (db db' : DB) : Prop :=
  client_part db' c = client_part db c ∨ last_seq db c < last_seq db' c

theorem last_seq_eq (db : DB) (c : Text) :
    last_seq db c = (((client_part db c).1).map ClientState.last_seq).getD 0 := rfl

theorem claim_count_eq (db : DB) (c : Text) : claim_count db c = (client_part db c).2.length := rfl

theorem client_part_restrict (db : DB) (c : Text) :
    client_part (restrict db c) c = client_part db c := by
  have hstate : state_row (restrict db c) c = state_row db c :=
    Tables.Table.lookup_only _ (by simp)
  rw [client_part, client_part, hstate]
  simp [restrict, Tables.Table.only, List.filter_filter]

section Later

variable {c : Text} {db db' db'' : DB}

theorem Later.refl (c : Text) (db : DB) : Later c db db := Or.inl rfl

theorem Later.le (h : Later c db db') : last_seq db c ≤ last_seq db' c := by
  rcases h with hsame | hlt
  · rw [last_seq_eq, last_seq_eq, hsame]
  · exact hlt.le

theorem Later.trans (h : Later c db db') (h' : Later c db' db'') : Later c db db'' := by
  rcases h with hsame | hlt
  · rcases h' with hsame' | hlt'
    · exact Or.inl (hsame'.trans hsame)
    · refine Or.inr ?_
      rw [last_seq_eq, ← hsame]
      exact hlt'
  · exact Or.inr (hlt.trans_le h'.le)

/-- As long as the number has not grown, nothing of the client's has changed. -/
theorem Later.same (h : Later c db db') (heq : last_seq db' c ≤ last_seq db c) :
    client_part db' c = client_part db c := by
  rcases h with hsame | hlt
  · exact hsame
  · exact absurd hlt (not_lt.mpr heq)

end Later

/-- The numbers of a validated request are positive. -/
theorem validated_seqs {request : Request} (h : request.Validated) : ∀ s ∈ request.seqs, 0 < s := by
  cases h with
  | events h =>
    obtain ⟨raws, hraws⟩ := Store.validate_events_parsed h
    intro s hs
    obtain ⟨e, he, rfl⟩ := List.mem_map.mp hs
    exact Store.forall_of_mapM (fun _ _ h => (parse_event_fields h).seq.1) hraws e he
  | @snapshot raw_id raw_seq raw maximum snapshot_id seq claims h =>
    intro s hs
    rw [List.mem_singleton.mp hs]
    unfold validate_snapshot at h
    obtain ⟨parsed_id, -, h⟩ := Store.bind_eq_ok.mp h
    obtain ⟨parsed_seq, hseq, h⟩ := Store.bind_eq_ok.mp h
    cases raw with
    | arr raws =>
      dsimp only at h
      split at h
      · cases h
      · obtain ⟨claims, -, h⟩ := Store.bind_eq_ok.mp h
        split at h
        · cases h
        · cases h
          exact (seq_ok hseq).1
    | _ => cases h

/-- A write that is accepted is a call with a validated request. -/
theorem write_performed {env : Server.Env} {client : Server.ClientConfig} {db db' : DB} {path : Path}
    {raw : Json} {moment : Moment} {result : ApplyResult}
    (h : Handler.write env client db path raw moment = (.ok result, db')) :
    ∃ request : Request, request.Validated ∧
      (Server.request_call env client request moment.now).perform env.store db = (.ok result, db') := by
  unfold Handler.write at h
  cases hread : Server.read_request env client path raw with
  | error e =>
    rw [hread] at h
    cases h
  | ok request =>
    rw [hread] at h
    dsimp only at h
    split at h
    · cases h
    · unfold Server.store_write at h
      rw [hread] at h
      dsimp only at h
      rcases hperform : (Server.request_call env client request moment.now).perform env.store db with
        ⟨stored, db₁⟩
      rw [hperform] at h
      obtain ⟨hresult, rfl⟩ := Prod.mk.inj h
      cases stored with
      | error e => cases hresult
      | ok r =>
        cases hresult
        exact ⟨request, (read_request_ok hread).1, hperform⟩

/-- A call leaves a client's rows as they are, or its number grows. -/
theorem later_perform {env : Store.Env} {db : DB} {call : Call} (hvalid : call.request.Validated)
    (c : Text) : Later c db (call.perform env db).2 := by
  by_cases hc : call.client_id = c
  · rcases hp : call.perform env db with ⟨result, db'⟩
    cases perform_outcome hp with
    | refused e => exact Later.refl c db
    | known duplicate hne hold hdb =>
      -- a client whose number is not zero has its row
      obtain ⟨s, hs⟩ := List.exists_mem_of_ne_nil _ hne
      have hpos : 0 < last_seq db call.client_id := (validated_seqs hvalid s hs).trans_le (hold s hs)
      have hexists : Store.client_exists db call.client_id := by
        by_contra hnone
        rw [Store.client_exists, Bool.not_eq_true, Option.isSome_eq_false_iff,
          Option.isNone_iff_eq_none] at hnone
        rw [last_seq, hnone] at hpos
        exact absurd hpos (Nat.lt_irrefl 0)
      rw [hdb, ensure_client_eq call.now hexists]
      exact Later.refl c db
    | fresh hfresh =>
      refine Or.inr ?_
      obtain ⟨s, hs⟩ := List.exists_mem_of_ne_nil _ hfresh.nonempty
      rw [← hc]
      exact (hfresh.newer s hs).trans_le (hfresh.seq_le hs)
  · refine Or.inl ?_
    rw [← client_part_restrict, restrict_perform_other env db call hc, client_part_restrict]

section Server

variable {τ : Type} [DecidableEq τ] {service : Service} {outcomes : ℕ → Outcome}
  {s s' : Interleaving.State τ} {a : Interleaving.Label τ}

/-- Who enforces records how it went, and nothing else. -/
theorem later_advance {env : HelperClient.Env} {sh sh' : Shared} {point point' : Point}
    (h : Advance env sh point sh' point') (c : Text) : Later c sh.db sh'.db := by
  cases h with
  | _ => exact Later.refl c _

theorem later_step (h : Interleaving.Step service outcomes s a s') (c : Text) :
    Later c s.db s'.db := by
  cases h with
  | @write t client path raw moment result db hidle hwrite =>
    obtain ⟨request, hvalid, hperform⟩ := write_performed hwrite
    have hlater := @later_perform service.server.store s.db
      (Server.request_call service.server client.toClientConfig request moment.now) hvalid c
    rw [hperform] at hlater
    exact hlater
  | prune now hidle => exact Later.refl c _
  | advance hholder hadvance => exact later_advance hadvance c
  | _ => exact Later.refl c _

/-! ## Replies to writes

A number is stored before the client is told of it, since a reply is sent after the transaction.
-/

/-- What the reply to a write says is stored. -/
def Visible (db : DB) (w : Written) : Prop := w.result.last_seq ≤ last_seq db w.client.id

/-- The write a thread is to reply to. -/
def to_reply : Interleaving.Phase → Option Written
  | .accepted w => some w
  | .ended w _ => some w
  | _ => none

/-- The writes that are still to be replied to are visible. -/
structure Seen (s : Interleaving.State τ) : Prop where
  threads : ∀ t w, to_reply (s.threads t) = some w → Visible s.db w
  holder : ∀ h w, s.holder = some h → h.written = some w → Visible s.db w

theorem visible_write {client : RegisteredClient} {db db' : DB} {path : Path} {raw : Json}
    {moment : Moment} {result : ApplyResult} (position : ℕ)
    (h : Handler.write service.server client.toClientConfig db path raw moment = (.ok result, db')) :
    Visible db' ⟨client, result, position⟩ := by
  obtain ⟨request, -, hperform⟩ := write_performed h
  unfold Visible
  cases perform_outcome hperform with
  | known duplicate hne hold hdb =>
    rw [hdb, Store.last_seq_ensure_client]
    exact le_rfl
  | fresh hfresh =>
    exact ((hfresh.last_seq client.id).trans (if_pos rfl)).ge

theorem Visible.mono {db db' : DB} {w : Written} (h : Visible db w)
    (hlater : Later w.client.id db db') : Visible db' w := h.trans hlater.le

omit [DecidableEq τ] in
theorem Seen.initial (db : DB) (pf : PF) :
    Seen (Interleaving.State.initial db pf : Interleaving.State τ) where
  threads t w h := by cases h
  holder h w hholder := by cases hholder

/-- One thread moves on, and what it has to reply to is visible. -/
theorem visible_update {db : DB} {threads : τ → Interleaving.Phase}
    (h : ∀ t w, to_reply (threads t) = some w → Visible db w) (t : τ) {phase : Interleaving.Phase}
    (hphase : ∀ w, to_reply phase = some w → Visible db w) :
    ∀ t' w, to_reply (Function.update threads t phase t') = some w → Visible db w := by
  intro t' w hw
  by_cases ht : t' = t
  · subst ht
    rw [Function.update_self] at hw
    exact hphase w hw
  · rw [Function.update_of_ne ht] at hw
    exact h t' w hw

theorem Seen.step (hseen : Seen s) (h : Interleaving.Step service outcomes s a s') : Seen s' := by
  -- what was visible still is
  have hkept : ∀ w, Visible s.db w → Visible s'.db w := fun w hw => hw.mono (later_step h w.client.id)
  have hthreads : ∀ t w, to_reply (s.threads t) = some w → Visible s'.db w :=
    fun t w hw => hkept w (hseen.threads t w hw)
  have hholder : ∀ h w, s.holder = some h → h.written = some w → Visible s'.db w :=
    fun h w hh hw => hkept w (hseen.holder h w hh hw)
  have hafter : ∀ {c : Holder τ} {outcome : Except Failed ℕ}, s.holder = some c →
      ∀ w, to_reply (Interleaving.phase_after c.written outcome) = some w → Visible s'.db w := by
    intro c outcome hc w hw
    cases hwritten : c.written with
    | none =>
      rw [hwritten] at hw
      cases hw
    | some w' =>
      rw [hwritten] at hw
      cases hw
      exact hholder c w hc hwritten
  cases h with
  | @write t client path raw moment result db hidle hwrite =>
    refine ⟨visible_update hthreads t (fun w hw => ?_), hholder⟩
    cases hw
    exact visible_write _ hwrite
  | prune now hidle => exact ⟨hthreads, hholder⟩
  | @enter t w hfree haccepted =>
    refine ⟨visible_update hthreads t (fun w hw => (by cases hw)), fun c w' hc hw => ?_⟩
    cases hc
    cases hw
    exact hthreads t w (by rw [haccepted]; rfl)
  | @enter_periodic t hfree hidle =>
    refine ⟨visible_update hthreads t (fun w hw => (by cases hw)), fun c w' hc hw => ?_⟩
    cases hc
    cases hw
  | advance hc hadvance =>
    refine ⟨hthreads, fun c' w hc' hw => ?_⟩
    cases hc'
    exact hholder _ w hc hw
  | leave hc hpoint => exact ⟨visible_update hthreads _ (hafter hc), fun c w hc => (by cases hc)⟩
  | leave_raising hc hpoint =>
    exact ⟨visible_update hthreads _ (hafter hc), fun c w hc => (by cases hc)⟩
  | @reply t w outcome surroundings hended =>
    exact ⟨visible_update hthreads t (fun w hw => (by cases hw)), hholder⟩
  | _ => exact ⟨hthreads, hholder⟩

theorem Seen.replied (hseen : Seen s) {t : τ} {w : Written} {response : Option Server.Response}
    (h : Interleaving.Step service outcomes s (.replied t w response) s') : Visible s'.db w := by
  have hlater := later_step h w.client.id
  generalize hlabel : Interleaving.Label.replied t w response = label at h
  cases h with
  | @reply t' w' outcome surroundings hended =>
    obtain ⟨rfl, rfl, -⟩ := Interleaving.Label.replied.inj hlabel
    exact hseen.threads t w (by rw [hended]; rfl)
  | _ => cases hlabel

end Server

/-! ## The count

The count goes through the effective addresses of the client and leaves out those in a network of
the index. Both readings of the rows, the texts and the addresses, count the same. -/

/-- The client claims the address for ever at that time. -/
def Claimed (db : DB) (c : Text) (boundary : ℚ) (a : IPAddress) : Prop :=
  ∃ r ∈ db.claims.rows, r.client_id = c ∧ r.permanent = 1 ∧
    (∀ t, r.expires_at = some t → boundary < t) ∧ r.ip = a.str

/-- The addresses of a client, of one family. -/
theorem mem_client_family {db : DB} {c : Text} {boundary : ℚ} {addresses : List IPAddress}
    (hstr : addresses.map IPAddress.str = (db.claims.rows.filter
      (fun r => r.client_id = c ∧ is_effective boundary r)).map ClaimRow.ip)
    (version : Version) (a : IPAddress) : a ∈ Store.family addresses version ↔
      a.version = version ∧ Claimed db c boundary a := by
  rw [Store.mem_family, ← List.mem_map_of_injective IPAddress.str_injective, hstr, List.mem_map,
    and_comm]
  refine and_congr_right (fun _ => ?_)
  constructor
  · rintro ⟨r, hr, hip⟩
    obtain ⟨hmem, hr⟩ := List.mem_filter.mp hr
    obtain ⟨hclient, heffective⟩ := of_decide_eq_true hr
    obtain ⟨hpermanent, hexpires⟩ := Store.is_effective_iff.mp heffective
    exact ⟨r, hmem, hclient, hpermanent, hexpires, hip⟩
  · rintro ⟨r, hmem, hclient, hpermanent, hexpires, hip⟩
    exact ⟨r, List.mem_filter.mpr ⟨hmem, decide_eq_true
      ⟨hclient, Store.is_effective_iff.mpr ⟨hpermanent, hexpires⟩⟩⟩, hip⟩

/-- The number of addresses the client claims for ever that a whitelist leaves. -/
noncomputable def kept_count (db : DB) (c : Text) (boundary : ℚ) (networks : List IPNetwork) : ℕ :=
  {a | Claimed db c boundary a ∧ ¬ Covered networks a}.ncard

theorem kept_count_eq {db : DB} {c : Text} {boundary : ℚ} {addresses : List IPAddress}
    (networks : List IPNetwork) (hstr : addresses.map IPAddress.str = (db.claims.rows.filter
      (fun r => r.client_id = c ∧ is_effective boundary r)).map ClaimRow.ip) :
    (kept networks (Store.family addresses .four)).length +
      (kept networks (Store.family addresses .six)).length = kept_count db c boundary networks := by
  have hmem : ∀ version a, a ∈ kept networks (Store.family addresses version) ↔
      (a.version = version ∧ Claimed db c boundary a) ∧ ¬ Covered networks a := by
    intro version a
    rw [mem_kept, mem_client_family hstr]
  have hnodup : (kept networks (Store.family addresses .four) ++
      kept networks (Store.family addresses .six)).Nodup := by
    refine List.Nodup.append ((Store.family_nodup _ _).filter _) ((Store.family_nodup _ _).filter _) ?_
    intro a h4 h6
    have h := ((hmem _ a).mp h4).1.1.symm.trans ((hmem _ a).mp h6).1.1
    cases h
  have hset : {a | Claimed db c boundary a ∧ ¬ Covered networks a} =
      ((kept networks (Store.family addresses .four) ++
        kept networks (Store.family addresses .six)).toFinset : Set IPAddress) := by
    ext a
    rw [List.coe_toFinset, Set.mem_ofPred_eq, Set.mem_ofPred_eq, List.mem_append, hmem, hmem]
    cases hversion : a.version with
    | four => simp
    | six => simp
  rw [kept_count, hset, Set.ncard_coe_finset, List.toFinset_card_of_nodup hnodup, List.length_append]

/-- When the count returns, it has counted the addresses that the client claims for ever and that the
whitelist loaded last leaves; before the first whitelist there are none. -/
theorem client_effective_count_spec {store : Store.Env} {s : Surroundings} {w : World} {c : Text}
    {count : ℕ} (hserved : Served store w.db) (h : client_effective_count s w c = .ok count) :
    (∀ networks, w.last_index = some (NetworkIndex.of_networks networks) →
      count = kept_count w.db c s.clock.counted networks) ∧
    (w.last_index = none → count = 0 ∧ ∀ a, ¬ Claimed w.db c s.clock.counted a) := by
  obtain ⟨addresses, hmap, hstr, -⟩ := @Store.addresses_of_rows
    (w.db.claims.rows.filter (fun r => r.client_id = c ∧ is_effective s.clock.counted r))
    (fun r hr => hserved.canonical r (List.mem_filter.mp hr).1)
  have heffective : client_effective_ips w.db c s.clock.counted =
      some (Store.family_lists addresses) := by
    rw [client_effective_ips, hmap]
    rfl
  have hlists : Store.family_lists addresses =
      ((Store.family addresses .four).map IPAddress.str,
        (Store.family addresses .six).map IPAddress.str) := rfl
  unfold client_effective_count at h
  split at h
  · cases h
  rw [heffective, hlists] at h
  split at h
  · rename_i hnone
    cases hnone
  · -- no address at all
    rename_i hnil
    obtain ⟨h4, h6⟩ := Prod.mk.inj (Option.some.inj hnil)
    rw [List.map_eq_nil_iff] at h4 h6
    cases h
    refine ⟨fun networks _ => ?_, fun _ => ⟨rfl, fun a ha => ?_⟩⟩
    · rw [← kept_count_eq networks hstr, h4, h6]
      rfl
    · have hmem := (mem_client_family hstr a.version a).mpr ⟨rfl, ha⟩
      cases hversion : a.version with
      | four =>
        rw [hversion, h4] at hmem
        cases hmem
      | six =>
        rw [hversion, h6] at hmem
        cases hmem
  · rename_i v4 v6 _ hsome
    obtain ⟨rfl, rfl⟩ := Prod.mk.inj (Option.some.inj hsome)
    split at h
    · cases h
    · rename_i index hindex
      refine ⟨fun networks hnetworks => ?_, fun hnone => ?_⟩
      · rw [hindex] at hnetworks
        cases hnetworks
        rw [exclude_texts, exclude_texts] at h
        rw [← kept_count_eq networks hstr]
        cases h
        rw [List.length_map, List.length_map]
      · rw [hindex] at hnone
        cases hnone

/-! ## The server's invariants

What has to be known of the server before a GET is looked at. The states of the store are ordered
for every client at once, so the order of two of them says which rows can have changed. -/

section Server

variable {τ : Type} [DecidableEq τ] {service : Service} {outcomes : ℕ → Outcome}
  {s s' : Interleaving.State τ} {a : Interleaving.Label τ}

/-- In each state of the store a client's number is at least what it was in the one before. -/
def Ordered (sh : Shared) : Prop := ∀ c, sh.history.Pairwise (Later c)

/-- The index is that of a whitelist the server has read. -/
def Indexed (sh : Shared) : Prop :=
  ∀ index, sh.last_index = some index →
    ∃ networks ∈ sh.whitelists, index = NetworkIndex.of_networks networks

structure Kept (service : Service) (s : Interleaving.State τ) : Prop where
  sound : Interleaving.Sound service s
  seen : Seen s
  ordered : Ordered s.toShared
  indexed : Indexed s.toShared

theorem Ordered.later {sh : Shared} (h : Ordered sh) {j k : ℕ} {db db' : DB} (hle : j ≤ k)
    (hj : sh.history[j]? = some db) (hk : sh.history[k]? = some db') (c : Text) : Later c db db' := by
  obtain ⟨hj', rfl⟩ := List.getElem?_eq_some_iff.mp hj
  obtain ⟨hk', rfl⟩ := List.getElem?_eq_some_iff.mp hk
  rcases hle.eq_or_lt with rfl | hlt
  · exact Later.refl c _
  · exact List.pairwise_iff_getElem.mp (h c) j k hj' hk' hlt

theorem Ordered.concat {sh sh' : Shared} (h : Ordered sh) (hlater : ∀ c, Later c sh.db sh'.db)
    (hhistory : sh'.history = sh.history ++ [sh'.db]) : Ordered sh' := by
  intro c
  rw [hhistory, List.pairwise_append]
  refine ⟨h c, List.pairwise_singleton _ _, fun db hdb db' hdb' => ?_⟩
  rw [List.mem_singleton.mp hdb']
  obtain ⟨j, hj⟩ := List.getElem?_of_mem hdb
  exact (h.later (Shared.le_version hj) hj sh.history_version c).trans (hlater c)

theorem history_advance {env : HelperClient.Env} {sh sh' : Shared} {point point' : Point}
    (h : Advance env sh point sh' point') :
    sh'.history = sh.history ∨ sh'.history = sh.history ++ [sh'.db] := by
  cases h with
  | attempt time => exact Or.inr rfl
  | success time => exact Or.inr rfl
  | failure time => exact Or.inr rfl
  | _ => exact Or.inl rfl

theorem history_step (h : Interleaving.Step service outcomes s a s') :
    s'.history = s.history ∨ s'.history = s.history ++ [s'.db] := by
  cases h with
  | write hidle hwrite => exact Or.inr rfl
  | prune now hidle => exact Or.inr rfl
  | advance hholder hadvance => exact history_advance hadvance
  | _ => exact Or.inl rfl

theorem indexed_advance {env : HelperClient.Env} {sh sh' : Shared} {point point' : Point}
    (hindexed : Indexed sh) (hcomputed : ∀ r ∈ sh.line.requests, Computed env sh r)
    (hpoint : point.Sound env sh) (h : Advance env sh point sh' point') : Indexed sh' := by
  cases h with
  | @prepare selection networks request file hprepare =>
    intro index hindex
    obtain ⟨networks', hnetworks', heq⟩ := hindexed index hindex
    exact ⟨networks', List.mem_append_left _ hnetworks', heq⟩
  | @success sending response time =>
    intro index hindex
    obtain ⟨⟨i, applied, hanswered⟩, -⟩ := hpoint
    cases hindex
    exact ⟨sending.networks, (hcomputed sending (List.mem_of_getElem? hanswered.1)).read, rfl⟩
  | _ => exact hindexed

omit [DecidableEq τ] in
theorem Kept.initial {db : DB} (hserved : Served service.server.store db) (pf : PF) :
    Kept service (Interleaving.State.initial db pf : Interleaving.State τ) where
  sound := Interleaving.Sound.initial hserved pf
  seen := Seen.initial db pf
  ordered c := List.pairwise_singleton _ _
  indexed index hindex := by cases hindex

theorem Kept.step (hkept : Kept service s) (h : Interleaving.Step service outcomes s a s') :
    Kept service s' := by
  refine ⟨h.sound hkept.sound, hkept.seen.step h, ?_, ?_⟩
  · rcases history_step h with hhistory | hhistory
    · intro c
      rw [hhistory]
      exact hkept.ordered c
    · exact hkept.ordered.concat (fun c => later_step h c) hhistory
  · have hindexed := hkept.indexed
    cases h with
    | advance hholder hadvance =>
      exact indexed_advance hindexed hkept.sound.computed (hkept.sound.holder _ hholder).point hadvance
    | accept authorized received file hidle hnext =>
      intro index hindex
      obtain ⟨networks, hnetworks, heq⟩ := hindexed index hindex
      exact ⟨networks, List.mem_append_left _ hnetworks, heq⟩
    | _ => exact hindexed

end Server

/-! ## What a GET has read

Each phase remembers where in the history of the store its queries were. Since the history only
grows, what was true of a phase stays true. -/

/-- The three queries saw states of the store that came one after the other. -/
def Figures (sh : Shared) (start : ℕ) (c : Text) (status : ClientStatus) : Prop :=
  ∃ (k₁ k₂ k₃ : ℕ) (db₁ db₂ db₃ : DB) (boundary : ℚ), start ≤ k₁ ∧ k₁ ≤ k₂ ∧ k₂ ≤ k₃ ∧
    sh.history[k₁]? = some db₁ ∧ sh.history[k₂]? = some db₂ ∧ sh.history[k₃]? = some db₃ ∧
    status = status_of c (state_row db₁ c) (totals db₂ c boundary) db₃.enforcement_state

def Phase.Sound (sh : Shared) (start : ℕ) : Phase → Prop
  | .idle => True
  | .authorized _ => True
  | .stated client state => ∃ k₁ db₁, start ≤ k₁ ∧ sh.history[k₁]? = some db₁ ∧
      state = state_row db₁ client.id
  | .totalled client state result => ∃ (k₁ k₂ : ℕ) (db₁ db₂ : DB) (boundary : ℚ), start ≤ k₁ ∧
      k₁ ≤ k₂ ∧ sh.history[k₁]? = some db₁ ∧ sh.history[k₂]? = some db₂ ∧
      state = state_row db₁ client.id ∧ result = totals db₂ client.id boundary
  | .described client status => Figures sh start client.id status

theorem Figures.mono {sh sh' : Shared} (hgrows : Grows sh sh') {start : ℕ} {c : Text}
    {status : ClientStatus} (h : Figures sh start c status) : Figures sh' start c status := by
  obtain ⟨k₁, k₂, k₃, db₁, db₂, db₃, boundary, h₁, h₂, h₃, hdb₁, hdb₂, hdb₃, hstatus⟩ := h
  exact ⟨k₁, k₂, k₃, db₁, db₂, db₃, boundary, h₁, h₂, h₃, hgrows.getElem? hdb₁, hgrows.getElem? hdb₂,
    hgrows.getElem? hdb₃, hstatus⟩

theorem Phase.Sound.mono {sh sh' : Shared} (hgrows : Grows sh sh') {start : ℕ} {phase : Phase}
    (h : phase.Sound sh start) : phase.Sound sh' start := by
  cases phase with
  | idle => exact trivial
  | authorized client => exact trivial
  | stated client state =>
    obtain ⟨k₁, db₁, h₁, hdb₁, hstate⟩ := h
    exact ⟨k₁, db₁, h₁, hgrows.getElem? hdb₁, hstate⟩
  | totalled client state result =>
    obtain ⟨k₁, k₂, db₁, db₂, boundary, h₁, h₂, hdb₁, hdb₂, hstate⟩ := h
    exact ⟨k₁, k₂, db₁, db₂, boundary, h₁, h₂, hgrows.getElem? hdb₁, hgrows.getElem? hdb₂, hstate⟩
  | described client status => exact Figures.mono hgrows h

section Runs

variable {τ γ : Type} [DecidableEq τ] [DecidableEq γ] {service : Service} {outcomes : ℕ → Outcome}
  {s s' : State τ γ} {l : Label τ γ}

/-- A GET does nothing to the server. -/
theorem server_step (h : Step service outcomes s l s') :
    s'.server = s.server ∨
      ∃ a, l = .server a ∧ Interleaving.Step service outcomes s.server a s'.server := by
  cases h with
  | server h => exact Or.inr ⟨_, rfl, h⟩
  | _ => exact Or.inl rfl

theorem grows_step (h : Step service outcomes s l s') :
    Grows s.server.toShared s'.server.toShared := by
  rcases server_step h with hsame | ⟨a, -, hstep⟩
  · rw [hsame]
    exact Grows.of_eq rfl rfl
  · exact hstep.grows

theorem kept_step (hkept : Kept service s.server) (h : Step service outcomes s l s') :
    Kept service s'.server := by
  rcases server_step h with hsame | ⟨a, -, hstep⟩
  · rwa [hsame]
  · exact hkept.step hstep

omit [DecidableEq τ] in
/-- A GET keeps where it is, until it takes a step itself. -/
theorem sound_goto {sh : Shared} {start : ℕ} {g : γ} (h : (s.gets g).Sound sh start) (g' : γ)
    {phase : Phase} (hphase : g' = g → phase.Sound sh start) :
    ((s.goto g' phase).gets g).Sound sh start := by
  unfold State.goto
  by_cases hg : g' = g
  · subst hg
    dsimp only
    rw [Function.update_self]
    exact hphase rfl
  · dsimp only
    rw [Function.update_of_ne (fun h => hg h.symm)]
    exact h

theorem sound_step {g : γ} {start : ℕ} (hstart : start ≤ s.server.version)
    (hsound : (s.gets g).Sound s.server.toShared start) (h : Step service outcomes s l s') :
    (s'.gets g).Sound s'.server.toShared start := by
  have hnow := s.server.history_version
  cases h with
  | server h => exact hsound.mono h.grows
  | authorize hidle hclient => exact sound_goto hsound _ (fun _ => trivial)
  | state h => exact sound_goto hsound _ (fun _ => ⟨_, _, hstart, hnow, rfl⟩)
  | totals boundary h =>
    refine sound_goto hsound _ (fun hg => ?_)
    subst hg
    rw [h] at hsound
    obtain ⟨k₁, db₁, h₁, hdb₁, hstate⟩ := hsound
    exact ⟨k₁, _, db₁, _, boundary, h₁, Shared.le_version hdb₁, hdb₁, hnow, hstate, rfl⟩
  | enforcement h =>
    refine sound_goto hsound _ (fun hg => ?_)
    subst hg
    rw [h] at hsound
    obtain ⟨k₁, k₂, db₁, db₂, boundary, h₁, h₂, hdb₁, hdb₂, rfl, rfl⟩ := hsound
    exact ⟨k₁, k₂, _, db₁, db₂, _, boundary, h₁, h₂, Shared.le_version hdb₂, hdb₁, hdb₂, hnow, rfl⟩
  | fail h => exact sound_goto hsound _ (fun _ => trivial)
  | count surroundings h hfree => exact sound_goto hsound _ (fun _ => trivial)

/-- An answer with status 200 is what the queries returned and what was counted. -/
theorem answered_ok {g : γ} {client : RegisteredClient} {counted : Option ℚ} {body : StatusBody}
    (h : Step service outcomes s (.answered g client counted (some (.ok body))) s') :
    ∃ (status : ClientStatus) (surroundings : Surroundings), s.gets g = .described client status ∧
      counted = some surroundings.clock.counted ∧
      body = status_body status body.effective_ip_count ∧ s'.server = s.server ∧
      client_effective_count surroundings ⟨s.server.db, s.server.pf, s.server.last_index⟩ client.id =
        .ok body.effective_ip_count := by
  generalize hlabel : Label.answered g client counted (some (.ok body)) = label at h
  cases h with
  | @count g' client' status surroundings h hfree =>
    obtain ⟨rfl, rfl, rfl, hreply⟩ := Label.answered.inj hlabel
    cases hcount : client_effective_count surroundings
      ⟨s.server.db, s.server.pf, s.server.last_index⟩ client.id with
    | ok count =>
      rw [hcount] at hreply
      cases hreply
      exact ⟨status, surroundings, h, rfl, rfl, rfl, hcount⟩
    | error e =>
      rw [hcount] at hreply
      cases e <;> cases hreply
  | fail h => cases hlabel
  | _ => cases hlabel

/-- The client and the number of a reply to a write or an answer to a GET. -/
def told : Label τ γ → Option (Text × ℕ)
  | .server (.replied _ w _) => some (w.client.id, w.result.last_seq)
  | .answered _ client _ (some (.ok body)) => some (client.id, body.last_seq)
  | _ => none

theorem last_seq_figures {sh : Shared} (hordered : Ordered sh) {start : ℕ} {c : Text}
    {status : ClientStatus} (h : Figures sh start c status) : status.last_seq ≤ last_seq sh.db c := by
  obtain ⟨k₁, -, -, db₁, -, -, -, -, -, -, hdb₁, -, -, rfl⟩ := h
  exact (hordered.later (Shared.le_version hdb₁) hdb₁ sh.history_version c).le

/-- What holds along a run from the start: the server's invariants, every GET is sound, and what a
client was told is stored. -/
structure Sound (service : Service) (labels : List (Label τ γ)) (s : State τ γ) : Prop where
  kept : Kept service s.server
  gets : ∀ g, (s.gets g).Sound s.server.toShared 0
  told : ∀ c seq, (c, seq) ∈ labels.filterMap told → seq ≤ last_seq s.server.db c

theorem later_of_step (h : Step service outcomes s l s') (c : Text) :
    Later c s.server.db s'.server.db := by
  rcases server_step h with hsame | ⟨a, -, hstep⟩
  · rw [hsame]
    exact Later.refl c _
  · exact later_step hstep c

theorem told_step (hkept : Kept service s.server) (hgets : ∀ g, (s.gets g).Sound s.server.toShared 0)
    (h : Step service outcomes s l s') {c : Text} {seq : ℕ} (htold : told l = some (c, seq)) :
    seq ≤ last_seq s'.server.db c := by
  cases l with
  | server a =>
    cases h with
    | server hstep =>
      cases a with
      | replied t w response =>
        cases htold
        exact hkept.seen.replied hstep
      | _ => cases htold
  | query g => cases htold
  | answered g client counted reply =>
    cases reply with
    | none => cases htold
    | some reply =>
      cases reply with
      | error response => cases htold
      | ok body =>
        cases htold
        obtain ⟨status, surroundings, hdescribed, -, hbody, hserver, -⟩ := answered_ok h
        have hfigures := hgets g
        rw [hdescribed] at hfigures
        rw [hbody, hserver]
        exact last_seq_figures hkept.ordered hfigures

theorem sound_run {db : DB} (hserved : Served service.server.store db) (pf : PF)
    {labels : List (Label τ γ)} (h : Run (Step service outcomes) (State.initial db pf) labels s) :
    Sound service labels s := by
  refine Run.invariant (P := Sound service) ?_ ?_ h
  · exact ⟨Kept.initial hserved pf, fun g => trivial, fun c seq hmem => (by cases hmem)⟩
  · rintro labels s₁ l s₂ - hsound hstep
    refine ⟨kept_step hsound.kept hstep,
      fun g => sound_step (Nat.zero_le _) (hsound.gets g) hstep, fun c seq hmem => ?_⟩
    rw [List.filterMap_append, List.mem_append] at hmem
    rcases hmem with hmem | hmem
    · exact (hsound.told c seq hmem).trans (later_of_step hstep c).le
    · obtain ⟨l', hl', htold⟩ := List.mem_filterMap.mp hmem
      rw [List.mem_singleton.mp hl'] at htold
      exact told_step hsound.kept hsound.gets hstep htold

/-- A GET that starts later reads only states of the store that are not older. -/
theorem since_run {g : γ} (hidle : s.gets g = .idle) {labels : List (Label τ γ)}
    (h : Run (Step service outcomes) s labels s') : Grows s.server.toShared s'.server.toShared ∧
      (s'.gets g).Sound s'.server.toShared s.server.version := by
  refine Run.invariant (P := fun _ s' => Grows s.server.toShared s'.server.toShared ∧
    (s'.gets g).Sound s'.server.toShared s.server.version) ?_ ?_ h
  · refine ⟨Grows.of_eq rfl rfl, ?_⟩
    rw [hidle]
    exact trivial
  · rintro labels s₁ l s₂ - ⟨hgrows, hsound⟩ hstep
    have hgrows' := grows_step hstep
    exact ⟨⟨hgrows.history.trans hgrows'.history,
      fun networks hnetworks => hgrows'.whitelists _ (hgrows.whitelists _ hnetworks)⟩,
      sound_step hgrows.version_le hsound hstep⟩

/-- What the server does it also does beside GETs. -/
theorem lift_run {labels : List (Interleaving.Label τ)} {server : Interleaving.State τ}
    (h : Run (Interleaving.Step service outcomes) s.server labels server) :
    Run (Step service outcomes) s (labels.map .server) { s with server } := by
  induction h with
  | nil => exact Run.nil
  | snoc _ hstep ih =>
    rw [List.map_append]
    exact ih.snoc (Step.server hstep)

omit [DecidableEq τ] in
@[simp] theorem gets_goto (s : State τ γ) (g : γ) (phase : Phase) : (s.goto g phase).gets g = phase :=
  Function.update_self _ _ _

/-- `client_status` and the count, one after the other. -/
theorem get_run {g : γ} (hidle : s.gets g = .idle) (hfree : s.server.holder = none)
    {fingerprint : Text} {client : RegisteredClient}
    (hclient : clients_by_fingerprint service fingerprint = some client) (boundary : ℚ)
    (surroundings : Surroundings) :
    ∃ (labels : List (Label τ γ)) (s₂ s₃ : State τ γ), Run (Step service outcomes) s labels s₂ ∧
      Step service outcomes s₂ (.answered g client (some surroundings.clock.counted)
        (get_response (client_status s.server.db client.id boundary)
          (client_effective_count surroundings ⟨s.server.db, s.server.pf, s.server.last_index⟩
            client.id))) s₃ ∧ s₃.server = s.server := by
  have h₁ : Step service outcomes s (.query g) _ := Step.authorize hidle hclient
  have h₂ : Step service outcomes _ (.query g) _ := Step.state (gets_goto s g (.authorized client))
  have h₃ : Step service outcomes _ (.query g) _ := Step.totals boundary (gets_goto
    (s.goto g (.authorized client)) g (.stated client (state_row s.server.db client.id)))
  have h₄ : Step service outcomes _ (.query g) _ := Step.enforcement (gets_goto
    ((s.goto g (.authorized client)).goto g (.stated client (state_row s.server.db client.id))) g
    (.totalled client (state_row s.server.db client.id) (totals s.server.db client.id boundary)))
  exact ⟨_, _, _, ((((Run.single h₁).snoc h₂).snoc h₃).snoc h₄),
    Step.count surroundings (gets_goto _ _ _) hfree, rfl⟩

/-- A GET leaves the store, the tables and the index as they are; its answer with status 200, when
nothing disturbs it, is that of a run. -/
theorem do_GET_run (fingerprint : Option Text) (path : Text) (moment : GetMoment) (w : Handler.State) :
    (do_GET service fingerprint path moment w).2.toWorld = w.toWorld ∧
    ∀ (body : StatusBody) (g : γ), (do_GET service fingerprint path moment w).1 = some (.ok body) →
      s.gets g = .idle → s.server.holder = none →
      w.toWorld = ⟨s.server.db, s.server.pf, s.server.last_index⟩ →
      ∃ (labels : List (Label τ γ)) (client : RegisteredClient) (s₂ s₃ : State τ γ),
        fingerprint.bind (clients_by_fingerprint service) = some client ∧
        Run (Step service outcomes) s labels s₂ ∧
        Step service outcomes s₂ (.answered g client (some moment.surroundings.clock.counted)
          (some (.ok body))) s₃ ∧
        s₃.server = s.server := by
  unfold do_GET
  cases hclient : fingerprint.bind (clients_by_fingerprint service) with
  | none => exact ⟨rfl, fun body g hanswer => (by cases hanswer)⟩
  | some client =>
    dsimp only
    rcases allow service.requests_per_minute w.requests client.id moment.monotonic with
      ⟨allowed, requests⟩
    cases allowed with
    | false => exact ⟨rfl, fun body g hanswer => (by cases hanswer)⟩
    | true =>
      refine ⟨rfl, fun body g hanswer hidle hfree hworld => ?_⟩
      obtain ⟨text, -, hregistered⟩ := Option.bind_eq_some_iff.mp hclient
      dsimp only at hanswer
      unfold get at hanswer
      split at hanswer
      · cases hanswer
      split at hanswer
      · cases hanswer
      obtain ⟨labels, s₂, s₃, hrun, hstep, hserver⟩ := @get_run τ γ _ _ service outcomes s g hidle hfree
        text client hregistered moment.now moment.surroundings
      rw [hworld] at hanswer
      rw [hanswer] at hstep
      exact ⟨labels, client, s₂, s₃, rfl, hrun, hstep, hserver⟩

/-! ## Answers

The three numbers of the phases and the state at the answer are in one order. When the client's
number is the same at the first and at the last, it was the same all the time, and so were the
rows. -/

/-- The count is that of the addresses the client claims at this reading of the clock, with the rows
of now, and the whitelist loaded last leaves. Without a whitelist so far there is nothing to count. -/
def Counted (s : Interleaving.State τ) (c : Text) (counted : ℚ) (count : ℕ) : Prop :=
  (∃ networks ∈ s.whitelists, s.last_index = some (NetworkIndex.of_networks networks) ∧
      count = kept_count s.db c counted networks) ∨
    (s.last_index = none ∧ count = 0 ∧ ∀ a, ¬ Claimed s.db c counted a)

/-- **What an answer says of the store.** Let a GET start in some state of a run and be answered with
status 200. Its figures are those of states of the store that came one after the other, none older than
where it started: the queries are transactions of their own, and writes may come between them. Its
number is at least every number the client was told before, by a reply to a write or an answer to a
GET, and at most the one that is stored now; if it is that one, the number of claims and the time are
those of now, too. The addresses are always counted as they are claimed now, at the reading of the
clock that the label of the answer carries. -/
theorem status_consistent (service : Service) (outcomes : ℕ → Outcome) (db : DB) (pf : PF)
    (hserved : Served service.server.store db) (earlier labels : List (Label τ γ))
    (s₁ s₂ s₃ : State τ γ) (h₁ : Run (Step service outcomes) (State.initial db pf) earlier s₁) (g : γ)
    (hidle : s₁.gets g = .idle) (h₂ : Run (Step service outcomes) s₁ labels s₂)
    (client : RegisteredClient) (counted : ℚ) (body : StatusBody)
    (h₃ : Step service outcomes s₂ (.answered g client (some counted) (some (.ok body))) s₃) :
    (∃ status, body = status_body status body.effective_ip_count ∧
      Figures s₃.server.toShared s₁.server.version client.id status) ∧
    (∀ seq, (client.id, seq) ∈ earlier.filterMap told → seq ≤ body.last_seq) ∧
    body.last_seq ≤ last_seq s₃.server.db client.id ∧
    (body.last_seq = last_seq s₃.server.db client.id →
      body.claim_count = claim_count s₃.server.db client.id ∧
      body.updated_at = (state_row s₃.server.db client.id).map ClientState.updated_at) ∧
    Counted s₃.server client.id counted body.effective_ip_count := by
  have hsound₁ := sound_run hserved pf h₁
  have hsound₂ := sound_run hserved pf (h₁.append h₂)
  have hordered := hsound₂.kept.ordered
  have hnow := s₂.server.history_version
  obtain ⟨hgrows, hfigures⟩ := since_run hidle h₂
  obtain ⟨status, surroundings, hdescribed, hclock, hbody, hserver, hcount⟩ := answered_ok h₃
  rw [hdescribed] at hfigures
  rw [hserver]
  obtain ⟨k₁, k₂, k₃, db₁, db₂, db₃, boundary, hk₁, hk₂, hk₃, hdb₁, hdb₂, hdb₃, hstatus⟩ := id hfigures
  have hlast : body.last_seq = last_seq db₁ client.id := by
    rw [hbody, hstatus]
    rfl
  refine ⟨⟨status, hbody, hfigures⟩, fun seq htold => ?_, ?_, fun heq => ?_, ?_⟩
  · have hlater := hordered.later hk₁ (hgrows.getElem? s₁.server.history_version) hdb₁ client.id
    rw [hlast]
    exact (hsound₁.told client.id seq htold).trans hlater.le
  · rw [hbody]
    exact last_seq_figures hordered hfigures
  · -- from the first query on nothing of the client's has changed
    have hle := (hlast.symm.trans heq).ge
    have h₁₂ := hordered.later hk₂ hdb₁ hdb₂ client.id
    have h₂' := hordered.later (Shared.le_version hdb₂) hdb₂ hnow client.id
    have hsame := (h₁₂.trans h₂').same hle
    have hsame₂ := h₂'.same (hle.trans h₁₂.le)
    constructor
    · rw [hbody, hstatus, claim_count_eq, hsame₂]
      rfl
    · rw [hbody, hstatus]
      exact congrArg (fun part => part.1.map ClientState.updated_at) hsame.symm
  · obtain ⟨hsome, hnone⟩ := @client_effective_count_spec service.server.store _ _ _ _
      (hsound₂.kept.sound.served _ (List.mem_of_getElem? hnow)) hcount
    rw [Option.some.inj hclock]
    cases hindex : s₂.server.last_index with
    | none => exact Or.inr ⟨hindex, hnone hindex⟩
    | some index =>
      obtain ⟨networks, hnetworks, rfl⟩ := hsound₂.kept.indexed index hindex
      exact Or.inl ⟨networks, hnetworks, hindex, hsome networks hindex⟩

end Runs

/-! A ban is posted, and then the client asks. -/

def sample_moment : GetMoment where
  monotonic := 1
  now := 2
  status_fails := false
  surroundings := sample_surroundings

def sample_raw : Json := .obj [("events".toList, .arr [sample_event 1 "192.0.2.7".toList])]

def sample_write : Except Server.Refused ApplyResult × DB :=
  Handler.write Handler.sample_service.server Interleaving.sample_registered.toClientConfig DB.initial
    .events sample_raw Interleaving.sample_undisturbed

def sample_world : World :=
  (enforce Handler.sample_service.helper Interleaving.sample_undisturbed.surroundings
    { Interleaving.sample_empty with db := sample_write.2 }).2

def sample_answer : StatusBody where
  client_id := "a".toList
  last_seq := 1
  claim_count := 1
  updated_at := some 1
  last_attempt := some 1
  last_success := some 1
  last_error := none
  effective_ip_count := 1

theorem sample_get : (do_GET Handler.sample_service (some "f1".toList) "/v1/status".toList sample_moment
    ⟨sample_world, fun _ => []⟩).1 = some (.ok sample_answer) := by
  have hbody : (do_GET Handler.sample_service (some "f1".toList) "/v1/status".toList sample_moment
      ⟨sample_world, fun _ => []⟩).1.bind Reply.body? = some sample_answer := by
    decide +kernel
  obtain ⟨reply, hreply, hbody⟩ := Option.bind_eq_some_iff.mp hbody
  cases reply with
  | ok body =>
    cases hbody
    exact hreply
  | error response => cases hbody

def sample_initial : Interleaving.State Unit :=
  Interleaving.State.initial DB.initial Interleaving.sample_empty.pf

def sample_stored (result : ApplyResult) : Interleaving.State Unit :=
  { sample_initial with
    toShared := sample_initial.commit sample_write.2
    threads := Function.update sample_initial.threads ()
      (.accepted ⟨Interleaving.sample_registered, result, 1⟩) }

/-- The ban is stored, enforced and replied to. -/
theorem sample_posted : ∃ (labels : List (Interleaving.Label Unit)) (s : Interleaving.State Unit)
    (w : Written) (response : Option Server.Response),
    Run (Interleaving.Step Handler.sample_service Interleaving.sample_undisturbed.surroundings.outcomes)
      sample_initial labels s ∧
    Interleaving.Alone s sample_world ∧ s.holder = none ∧
    .replied () w response ∈ labels ∧ w.client.id = "a".toList ∧ w.result.last_seq = 1 := by
  have hresult : sample_write.1.toOption = some ⟨true, false, false, 1⟩ := by
    decide +kernel
  obtain ⟨result, hwrite, hseq⟩ : ∃ result, sample_write = (.ok result, sample_write.2) ∧
      result.last_seq = 1 := by
    rcases hwrite : sample_write with ⟨result, db⟩
    rw [hwrite] at hresult
    cases result with
    | error e => cases hresult
    | ok result =>
      cases hresult
      exact ⟨_, rfl, rfl⟩
  have hstored : Interleaving.Step Handler.sample_service
      Interleaving.sample_undisturbed.surroundings.outcomes sample_initial .silent
      (sample_stored result) := Interleaving.Step.write rfl hwrite
  have haccepted : (sample_stored result).threads () =
      .accepted ⟨Interleaving.sample_registered, result, 1⟩ :=
    Function.update_self () _ sample_initial.threads
  obtain ⟨labels, s, hrun, halone, hfree, hended⟩ :=
    @Interleaving.enforce_run Unit _ Handler.sample_service (sample_stored result)
      { Interleaving.sample_empty with db := sample_write.2 } () _ ⟨rfl, rfl, rfl, rfl, rfl⟩ rfl
      haccepted Interleaving.sample_undisturbed.surroundings rfl
  have hreply := @Interleaving.Step.reply Unit _ Handler.sample_service
    Interleaving.sample_undisturbed.surroundings.outcomes s () _ _ sample_surroundings hended
  exact ⟨_, _, _, _, (hrun.cons hstored).snoc hreply, halone.moved _ _, hfree,
    List.mem_append_right _ (List.mem_singleton.mpr rfl), rfl, hseq⟩

/-- The answer tells the ban the client was told of before. -/
theorem status_consistent_sample : ∃ (earlier labels : List (Label Unit Unit))
    (s₁ s₂ s₃ : State Unit Unit) (client : RegisteredClient),
    Run (Step Handler.sample_service Interleaving.sample_undisturbed.surroundings.outcomes)
      (State.initial DB.initial Interleaving.sample_empty.pf) earlier s₁ ∧
    Run (Step Handler.sample_service Interleaving.sample_undisturbed.surroundings.outcomes) s₁ labels
      s₂ ∧
    Step Handler.sample_service Interleaving.sample_undisturbed.surroundings.outcomes s₂
      (.answered () client (some sample_moment.surroundings.clock.counted)
        (some (.ok sample_answer))) s₃ ∧
    ("a".toList, 1) ∈ earlier.filterMap told ∧
    (∀ seq, ("a".toList, seq) ∈ earlier.filterMap told → seq ≤ 1) ∧
    Counted s₃.server "a".toList sample_moment.surroundings.clock.counted 1 := by
  obtain ⟨labels, s, w, response, hrun, halone, hfree, hreplied, hclient, hseq⟩ := sample_posted
  have h₁ := @lift_run Unit Unit _ _ Handler.sample_service
    Interleaving.sample_undisturbed.surroundings.outcomes
    (State.initial DB.initial Interleaving.sample_empty.pf) _ _ hrun
  have hworld : sample_world = ⟨s.db, s.pf, s.last_index⟩ := by
    rw [halone.db, halone.pf, halone.last_index]
  obtain ⟨gets, client, s₂, s₃, hregistered, h₂, h₃, -⟩ := (@do_GET_run Unit Unit _ _
    Handler.sample_service Interleaving.sample_undisturbed.surroundings.outcomes
    { State.initial DB.initial Interleaving.sample_empty.pf with server := s } (some "f1".toList)
    "/v1/status".toList sample_moment ⟨sample_world, fun _ => []⟩).2 sample_answer () sample_get rfl
    hfree hworld
  cases hregistered
  obtain ⟨-, htold, -, -, hcounted⟩ := status_consistent Handler.sample_service _ DB.initial
    Interleaving.sample_empty.pf (Served.initial _) _ _ _ _ _ h₁ () rfl h₂ _ _ sample_answer h₃
  refine ⟨_, _, _, _, _, _, h₁, h₂, h₃, ?_, htold, hcounted⟩
  refine List.mem_filterMap.mpr ⟨.server (.replied () w response), List.mem_map_of_mem hreplied, ?_⟩
  rw [told, hclient, hseq]

end F2bguard.Status
