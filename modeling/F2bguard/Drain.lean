/-
Emptying the outbox when nothing fails.

The worker is left alone with a receiver whose network, database and helper never fail. Each
call of `process_once` at a due time then delivers the row with the least number, unless one of
two things stands in the way: the receiver refuses that row because of a limit on claims, or it
stores the row and answers 503 because the tables cannot be made what the store says, with a
whitelist that cannot be parsed or a request to the helper of more than 4 MiB. Neither goes away
by itself. Rows are delivered strictly in order, so a row that is put off keeps all rows behind
it waiting: as many calls as the outbox had rows empty it when neither happens at any of them
(`outbox_drains`), and a limit that is hit by the first row is hit again at every call
(`release_kept_waiting`).
-/
import F2bguard.Enforceable

set_option autoImplicit false

namespace F2bguard.Delivery

open F2bguard.PyText F2bguard.PyJson F2bguard.Claims F2bguard.Tables F2bguard.Runs F2bguard.Uuid
open F2bguard.Sender (Payload OutboxRow Message SenderError SenderConfig row_request send_request
  pending next_due Sound Distinct Consistent InStep Holds Enumerated StartsAlphanumeric)

/-! ## Calls of the worker

One call of the worker with its request and reply, and then several, each on its own occasion.
Between two calls only the occasion changes: no hook runs and no other client writes. -/

/-- The stores at both ends. -/
structure Ends where
  sender : Sender.DB
  receiver : Store.DB

/-- **The occasion of a call.** The time the worker acts at; what the receiver meets while it
handles the request, which are its clocks, SQLite, the whitelist file as both readers find it,
the connections to the helper and the calls of `pfctl`; and what the tables and the server's
index are by then. The last two are left open, since other clients enforce in between. -/
structure Occasion where
  now : ℚ
  moment : Handler.Moment
  pf : PfHelper.PF
  last_index : Option Networks.NetworkIndex

/-- Neither the database nor the helper fails. -/
structure Occasion.Undisturbed (t : Occasion) : Prop where
  writes : t.moment.write_fails = false
  enforcement : Enforcer.Undisturbed t.moment.surroundings t.pf

/-- What the store says can be put into the tables. -/
def Occasion.Enforceable (t : Occasion) (db : Store.DB) : Prop :=
  Enforcer.Enforceable t.moment.surroundings db

/-- The message of the row that is due. -/
def due_message (env : Sender.Env) (db : Sender.DB) (now : ℚ) : Option Message :=
  (next_due db now).bind (fun row => (row_message env row).toOption)

/-- The receiver's side of a call: `do_POST` for the request that `HTTPSClient.send` sends, with
the enforcement of the tables after the write. -/
def answer (service : Handler.Service) (client : Handler.RegisteredClient) (db : Store.DB)
    (t : Occasion) (message : Message) : Option Server.Response × Store.DB :=
  let (response, w) := Handler.post service client
    (Handler.framed client.cert_sha256.head? message.path message.body) t.moment
    ⟨db, t.pf, t.last_index⟩
  (response, w.db)

/-- A call of `process_once` whose request and reply arrive: the reply, and the stores. When no
row is due there is no request and nothing changes. -/
def attempt (env : Sender.Env) (service : Handler.Service) (client : Handler.RegisteredClient)
    (s : Ends) (t : Occasion) : Except SenderError (Option Server.Response × Ends) :=
  let post := answer service client s.receiver t
  (Sender.process_once env s.sender t.now (fun m => (post m).1.any acknowledges)).map (fun r =>
    match due_message env s.sender t.now with
    | none => (none, ⟨r.2, s.receiver⟩)
    | some m => ((post m).1, ⟨r.2, (post m).2⟩))

/-- Calls one after the other: each reply with what the receiver has stored by then, and the
stores in the end. -/
def attempts (env : Sender.Env) (service : Handler.Service) (client : Handler.RegisteredClient) :
    Ends → List Occasion → Except SenderError (List (Option Server.Response × Store.DB) × Ends)
  | s, [] => .ok ([], s)
  | s, t :: ts =>
      (attempt env service client s t).bind (fun r =>
        (attempts env service client r.2 ts).map (fun rs => ((r.1, r.2.receiver) :: rs.1, rs.2)))

/-- Each call comes when the row at the head is due. The delay after a failed attempt is the
worker's own, so a call that is made too early does nothing. -/
def always_due (env : Sender.Env) (service : Handler.Service) (client : Handler.RegisteredClient) :
    Ends → List Occasion → Bool
  | _, [] => true
  | s, t :: ts =>
      (Sender.head s.sender).all (fun row => row.available_at ≤ t.now) &&
        match attempt env service client s t with
        | .ok (_, s') => always_due env service client s' ts
        | .error _ => true

/-- The replies that refuse a request for the number of its claims. The first two are those of the
store, the third that of the validator. -/
def LimitRefusal (response : Server.Response) : Prop :=
  response = Server.error_response 400 "claims_per_client limit exceeded".toList ∨
    response = Server.error_response 400 "global claim limit exceeded".toList ∨
    response = Server.error_response 400 "too many claims".toList

theorem LimitRefusal.not_acknowledges {r : Server.Response} (h : LimitRefusal r) :
    acknowledges r = false := by
  rcases h with rfl | rfl | rfl <;> exact not_acknowledges_error _ _ (by decide)

/-- **How a call may end for the row it sends.** It is acknowledged, and then the tables were
enforceable; or it is refused for a limit on claims; or it is stored, but the tables are not
enforceable, and the 503 that says so is no acknowledgement for the sender. -/
def Settled (t : Occasion) (result : Option Server.Response × Store.DB) : Prop :=
  ∃ r, result.1 = some r ∧ (acknowledges r = true ∧ t.Enforceable result.2 ∨ LimitRefusal r ∨
    r.status = 503 ∧ ¬ t.Enforceable result.2)

/-- The numbers that wait, in the order of their rows. -/
def queue (db : Sender.DB) : List ℕ := (pending db).map OutboxRow.seq

/-! ## The order of the rows

Rows are appended with growing numbers and never change places, so the head is the first one that
waits. Putting it off or marking it leaves the others. -/

/-- The rows of the outbox stand in the order of their numbers. -/
def Ordered (db : Sender.DB) : Prop := (db.outbox.rows.map OutboxRow.seq).Pairwise (· < ·)

theorem ordered_step {env : Sender.Env} {log : List Payload} {done : List ℕ} {s s' : Sender.State}
    {a : Sender.Label} (hsound : Sound env log done s) (h : Ordered s.db)
    (hstep : Sender.Step env s a s') : Ordered s'.db := by
  -- every row has a number the store has handed out already
  have hbelow : ∀ r ∈ s.db.outbox.rows, r.seq ≤ s.db.seq := by
    intro r hr
    obtain ⟨p, hp, hholds⟩ := hsound.outbox r hr
    have hmem : p.seq ∈ log.map Payload.seq := List.mem_map_of_mem hp
    rw [hsound.seqs, List.mem_range'_1] at hmem
    rw [hholds.seq]
    omega
  -- so a row that is added goes behind all others
  have hinsert : ∀ {p : Payload} {now : ℚ} {db : Sender.DB},
      Sender.Inserted env s.db p now db → Ordered db := by
    intro p now db hins
    rw [Ordered, hins.outbox, List.map_append, List.pairwise_append]
    refine ⟨h, List.pairwise_singleton _ _, ?_⟩
    intro a ha b hb
    obtain ⟨r, hr, rfl⟩ := List.mem_map.mp ha
    rw [List.map_singleton, List.mem_singleton] at hb
    have hseq : b = s.db.seq + 1 := hb.trans hins.seq
    have := hbelow r hr
    omega
  -- and rewriting rows in place does not move them
  have hsame : ∀ {f : OutboxRow → OutboxRow} {db : Sender.DB}, (∀ r, (f r).seq = r.seq) →
      db.outbox.rows = s.db.outbox.rows.map f → Ordered db := by
    intro f db hf hrows
    rw [Ordered, hrows, List.map_map]
    rwa [show OutboxRow.seq ∘ f = OutboxRow.seq from funext hf]
  cases hstep with
  | @enqueue op jail ip now ban_uuid event_uuid result db hcall =>
    rcases Sender.enqueue_outcome hsound.claims hcall with
      ⟨e, rfl, rfl⟩ | ⟨op', ip', -, -, -, -, hout⟩
    · exact h
    · cases hout with
      | refused e => exact h
      | repeated hrep => exact h
      | recorded hrec => exact hinsert hrec.inserted
  | @commit before after call now snapshot_uuid result db hcalls hrest hcommit =>
    have hcall : call.Sound := hsound.calls call (by rw [hcalls]; simp)
    rcases Sender.commit_outcome hcall.pairs hcommit with ⟨e, rfl, rfl⟩ | ⟨p, rfl, hcom⟩
    · exact h
    · exact hinsert hcom.inserted
  -- pruning takes rows out
  | prune_delivered =>
    exact List.Pairwise.sublist (List.Sublist.map _ List.filter_sublist) h
  | @finish row now delivered hsending =>
    cases delivered with
    | true => exact hsame (fun r => by split <;> rfl) rfl
    | false => exact hsame (fun r => by split <;> rfl) rfl
  | _ => exact h

theorem pending_sublist (db : Sender.DB) : (pending db).Sublist db.outbox.rows := List.filter_sublist

/-- The head is the first row that waits. -/
theorem head_eq {db : Sender.DB} (h : Ordered db) {row : OutboxRow} {rest : List OutboxRow}
    (hpending : pending db = row :: rest) : Sender.head db = some row := by
  have hsorted : (row :: rest).Pairwise (fun a b => a.seq < b.seq) := by
    rw [← hpending]
    exact (List.pairwise_map.mp h).sublist (pending_sublist db)
  have hleast : (pending db).all (fun r' => row.seq ≤ r'.seq) = true := by
    rw [List.all_eq_true, hpending]
    intro r' hr'
    rw [decide_eq_true_eq]
    rcases List.mem_cons.mp hr' with rfl | hr'
    · exact le_rfl
    · exact ((List.pairwise_cons.mp hsorted).1 r' hr').le
  rw [Sender.head]
  rw [hpending] at hleast ⊢
  exact List.find?_cons_of_pos hleast

theorem pending_delivered {db : Sender.DB} {row : OutboxRow} {rest : List OutboxRow} (now : ℚ)
    (hpending : pending db = row :: rest) :
    pending (Sender.clear_last_error (Sender.mark_delivered db row.id now)) = rest := by
  -- the update sets `delivered_at` of one row, which then no longer waits
  have hfilter : ∀ rows : List OutboxRow,
      (rows.map (fun r => if decide (r.id = row.id ∧ r.delivered_at.isNone = true) then
        r.delivered now else r)).filter (fun r => r.delivered_at.isNone) =
      (rows.filter (fun r => r.delivered_at.isNone)).filter (fun r => r.id ≠ row.id) := by
    intro rows
    induction rows with
    | nil => rfl
    | cons r rows ih =>
      rw [List.map_cons, List.filter_cons, List.filter_cons, ih]
      by_cases hnone : r.delivered_at.isNone = true
      · by_cases hid : r.id = row.id
        · simp [hid, hnone, OutboxRow.delivered]
        · simp [hid, hnone]
      · simp [hnone]
  have hrest : ∀ r ∈ rest, r.id ≠ row.id := by
    have hdistinct := db.outbox.distinct.sublist (pending_sublist db)
    rw [hpending, List.pairwise_cons] at hdistinct
    exact fun r hr => (hdistinct.1 r hr).1.symm
  refine (hfilter db.outbox.rows).trans ?_
  change (pending db).filter _ = rest
  rw [hpending, List.filter_cons_of_neg (by simp), List.filter_eq_self]
  intro r hr
  simpa using hrest r hr

/-- Putting a row off changes neither numbers nor messages. -/
theorem pending_retried (db : Sender.DB) (row_id attempts : ℕ) (now delay : ℚ) (error_type : Text) :
    ∃ f : OutboxRow → OutboxRow,
      (∀ env r, (f r).seq = r.seq ∧ row_message env (f r) = row_message env r) ∧
      pending (Sender.set_last_error (Sender.mark_retry db row_id attempts now delay) error_type) =
        (pending db).map f := by
  refine ⟨fun r => if decide (r.id = row_id ∧ r.delivered_at.isNone = true) then
    r.retried attempts (now + delay) else r, fun env r => ?_, ?_⟩
  · dsimp only
    split <;> exact ⟨rfl, rfl⟩
  · change (db.outbox.rows.map _).filter _ = (db.outbox.rows.filter _).map _
    rw [List.filter_map]
    congr 1
    apply List.filter_congr
    intro r hr
    simp only [Function.comp_apply]
    split <;> rfl

/-! ## Jails of the configuration

The sender refuses no jail by its configuration; the command line does. What the receiver allows
has to cover the jails of everything that waits. -/

/-- What both programs check before they call their store: a hook gets past the command line only
for a jail of the configuration, and a request of another client is validated. -/
def Label.Configured (config : SenderConfig) : Label → Prop
  | .sender (.enqueue _ jail _ _ _ _ _) => ∃ j ∈ config.permanent_jails, j.name = jail
  | .other call => call.request.Validated
  | _ => True

/-- Everything written so far, or being written, is about jails of the configuration, and the
rows are in order. -/
structure Tidy (config : SenderConfig) (log : List Payload) (s : Sender.State) : Prop where
  jails : ∀ p ∈ log, ∀ jail ∈ p.jails, ∃ j ∈ config.permanent_jails, j.name = jail
  calls : ∀ call ∈ s.calls, ∀ claim ∈ call.claims, Enumerated config claim
  ordered : Ordered s.db

theorem tidy_step {env : Sender.Env} {config : SenderConfig} {log : List Payload} {done : List ℕ}
    {s s' : Sender.State} {a : Sender.Label} (hsound : Sound env log done s)
    (h : Tidy config log s) (hstep : Sender.Step env s a s')
    (hconfigured : Label.Configured config (.sender a))
    (hclaims : ∀ claims seq, a = .begin_snapshot claims seq → ∀ c ∈ claims, Enumerated config c) :
    Tidy config (log ++ a.issued.toList) s' := by
  have hordered := ordered_step hsound h.ordered hstep
  -- a step that issues nothing adds no jail
  have hquiet : a.issued = none → ∀ p ∈ log ++ a.issued.toList, ∀ jail ∈ p.jails,
      ∃ j ∈ config.permanent_jails, j.name = jail := by
    intro hnone
    rw [hnone, Option.toList_none, List.append_nil]
    exact h.jails
  -- a payload that is written has jails of the configuration
  have hwritten : ∀ {p : Payload}, a.issued = some p →
      (∀ jail ∈ p.jails, ∃ j ∈ config.permanent_jails, j.name = jail) →
      ∀ p ∈ log ++ a.issued.toList, ∀ jail ∈ p.jails,
        ∃ j ∈ config.permanent_jails, j.name = jail := by
    intro p hsome hp q hq
    rw [hsome] at hq
    rcases List.mem_append.mp hq with hq | hq
    · exact h.jails q hq
    · rw [List.mem_singleton.mp hq]
      exact hp
  cases hstep with
  | @enqueue op jail ip now ban_uuid event_uuid result db hcall =>
    rcases Sender.enqueue_outcome hsound.claims hcall with
      ⟨e, rfl, rfl⟩ | ⟨op', ip', -, -, -, -, hout⟩
    · exact ⟨hquiet rfl, h.calls, hordered⟩
    · cases hout with
      | refused e => exact ⟨hquiet rfl, h.calls, hordered⟩
      | repeated hrep => exact ⟨hquiet rfl, h.calls, hordered⟩
      | @recorded p db' hrec =>
        refine ⟨hwritten rfl ?_, h.calls, hordered⟩
        intro j hj
        have hjail : p.jail = jail := by rw [hrec.payload]
        rw [List.mem_singleton.mp hj, hjail]
        exact hconfigured
  | begin_snapshot claims expected_seq =>
    refine ⟨hquiet rfl, ?_, hordered⟩
    intro call hcall
    rcases List.mem_cons.mp hcall with rfl | hcall
    · exact hclaims claims expected_seq rfl
    · exact h.calls call hcall
  | @normalize before after call claim rest normalized ban_uuid hcalls hrest hn =>
    have hall := h.calls
    rw [hcalls, List.forall_mem_append, List.forall_mem_cons] at hall
    refine ⟨hquiet rfl, ?_, hordered⟩
    rw [List.forall_mem_append, List.forall_mem_cons]
    exact hall
  | @commit before after call now snapshot_uuid result db hcalls hrest hcommit =>
    have hmem : call ∈ s.calls := by
      rw [hcalls]
      simp
    have hcall := hsound.calls call hmem
    have hleft : ∀ call ∈ before ++ after, ∀ claim ∈ call.claims, Enumerated config claim := by
      have hall := h.calls
      rw [hcalls, List.forall_mem_append, List.forall_mem_cons] at hall
      exact List.forall_mem_append.mpr ⟨hall.1, hall.2.2⟩
    rcases Sender.commit_outcome hcall.pairs hcommit with ⟨e, rfl, rfl⟩ | ⟨p, rfl, hcom⟩
    · exact ⟨hquiet rfl, hleft, hordered⟩
    · refine ⟨hwritten rfl ?_, hleft, hordered⟩
      intro jail hjail
      obtain ⟨c, hc, rfl⟩ := List.mem_map.mp hjail
      obtain ⟨claim, hclaim, hsame⟩ := (hcom.jails hcall hrest c.jail).mp ⟨c, hc, rfl⟩
      obtain ⟨j, hj, hname⟩ := (h.calls call hmem claim hclaim).jail
      exact ⟨j, hj, by rw [← hname, hsame]⟩
  | @abandon before after call hcalls =>
    have hall := h.calls
    rw [hcalls, List.forall_mem_append, List.forall_mem_cons] at hall
    exact ⟨hquiet rfl, List.forall_mem_append.mpr ⟨hall.1, hall.2.2⟩, hordered⟩
  | _ => exact ⟨hquiet rfl, h.calls, hordered⟩

section Configured

variable {env : Sender.Env} {config : SenderConfig} {server : Server.Env}
  {client : Server.ClientConfig}

theorem tidy_run {labels : List Label} {s : State}
    (h : Run (Step env config server client) State.initial labels s)
    (hconfigured : ∀ a ∈ labels, a.Configured config) : Tidy config (issued labels) s.sender := by
  refine Run.invariant (P := fun labels s => (∀ a ∈ labels, a.Configured config) →
    Tidy config (issued labels) s.sender) ?_ ?_ h hconfigured
  · intro _
    exact ⟨fun p hp => (by cases hp), fun call hcall => (by cases hcall), List.Pairwise.nil⟩
  · intro labels s₁ a s₂ hrun ih hstep hall
    rw [List.forall_mem_append] at hall
    have htidy := ih hall.1
    have hsound := (coherent_run hrun).sound
    have hlast := hall.2 a (List.mem_singleton.mpr rfl)
    rw [issued_snoc]
    cases hstep with
    | @work a sender hlocal hfresh hstep =>
      refine tidy_step hsound htidy hstep hlast ?_
      rintro claims seq rfl
      obtain ⟨runner, hclaims⟩ := hlocal
      exact Sender.enumerate_spec hclaims
    | attempt hstep =>
      exact tidy_step hsound htidy hstep trivial (fun _ _ h => (by cases h))
    | acknowledged _ _ _ hstep =>
      exact tidy_step hsound htidy hstep trivial (fun _ _ h => (by cases h))
    | _ =>
      change Tidy config (issued labels ++ []) s₁.sender
      rwa [List.append_nil]

/-! ## The receiver's store

Every row in it was validated, so an enforcement finds only addresses it can read. -/

/-- The receiver stores what it has validated. -/
theorem do_POST_served {db : Store.DB} {path : Path} {text : Text} {now : ℚ}
    {enforced : Store.DB → Except Text ℕ} (h : Store.Served server.store db) :
    Store.Served server.store (Server.do_POST server client db path text now enforced).2 := by
  unfold Server.do_POST
  cases Server._body server text with
  | error response => exact h
  | ok raw =>
    dsimp only
    unfold Server.store_write
    cases hread : Server.read_request server client path raw with
    | error e => exact h
    | ok request =>
      have hposted := h.perform (a := .call (Server.request_call server client request now))
        (Handler.read_request_ok hread).1
      dsimp only
      rw [Store.Action.perform] at hposted
      rcases hperform : (Server.request_call server client request now).perform server.store db with
        ⟨result, db'⟩
      rw [hperform] at hposted
      cases result <;> exact hposted

theorem served_run {labels : List Label} {s : State}
    (h : Run (Step env config server client) State.initial labels s)
    (hconfigured : ∀ a ∈ labels, a.Configured config) : Store.Served server.store s.receiver := by
  refine Run.invariant (P := fun labels s => (∀ a ∈ labels, a.Configured config) →
    Store.Served server.store s.receiver) ?_ ?_ h hconfigured
  · exact fun _ => Store.Served.initial _
  · intro labels s₁ a s₂ hrun ih hstep hall
    rw [List.forall_mem_append] at hall
    have hserved := ih hall.1
    have hlast := hall.2 a (List.mem_singleton.mpr rfl)
    cases hstep with
    | @process message now enforced response receiver hsent hpost =>
      have hafter := @do_POST_served server client _ message.path message.body now enforced hserved
      rw [hpost] at hafter
      exact hafter
    | prune_history now => exact hserved.perform (a := .prune now) trivial
    | @other call hother => exact hserved.perform (a := .call call) hlast
    | _ => exact hserved

end Configured

/-! ## One call

What the receiver answers is put together from two facts: the payload is stored or refused for a
limit, and what is stored is enforced exactly when it is enforceable. -/

section Drain

variable {env : Sender.Env} {service : Handler.Service} {client : Handler.RegisteredClient}

/-- The worker is between two calls, all that waits is small enough, and what is stored was
validated. The state of the larger system is any one whose stores are these. -/
structure Ready (env : Sender.Env) (service : Handler.Service) (client : Handler.RegisteredClient)
    (log : List Payload) (s : Ends) : Prop where
  coherent : ∃ done x, Coherent env service.server client.toClientConfig log done x ∧
    x.sender.db = s.sender ∧ x.receiver = s.receiver ∧ x.sender.sending = none
  ordered : Ordered s.sender
  fits : ∀ row ∈ pending s.sender, ∃ m, row_message env row = .ok m ∧
    m.body.length ≤ service.server.limits.body_bytes
  served : Store.Served service.server.store s.receiver

theorem read_request_too_many {server : Server.Env} {client : Server.ClientConfig}
    {p : Sender.SnapshotPayload} (h : p.Valid)
    (hmany : server.limits.claims_per_client < p.claims.length) :
    Server.read_request server client .snapshot (Payload.snapshot p).request =
      .error (.raised (.validation_error "too many claims".toList)) := by
  rw [Sender.read_request_snapshot, Sender.validate_snapshot_wire h, if_pos hmany]
  rfl

/-- A payload is stored, and then the tables are enforced, or it is refused for the number of its
claims. -/
theorem do_POST_cases {server : Server.Env} {client : Server.ClientConfig} {log : List Payload}
    {p : Payload} {db db' : Store.DB} {now : ℚ} {enforced : Store.DB → Except Text ℕ}
    {response : Option Server.Response} (hlog : Consistent log)
    (hstep : InStep server.store client.id log db) (hp : p ∈ log)
    (hnext : p.seq ≤ Store.last_seq db client.id + 1)
    (hsize : (p.message env).body.length ≤ server.limits.body_bytes)
    (hevents : 1 ≤ server.limits.events_per_request)
    (hjails : ∀ jail ∈ p.jails, StartsAlphanumeric jail ∧ jail ∈ client.allowed_jails)
    (hpost : Server.do_POST server client db (p.message env).path (p.message env).body now enforced =
      (response, db')) :
    ∃ r, response = some r ∧ (LimitRefusal r ∨ ∃ x : Store.ApplyResult, x.accepted = true ∧
      r = Server._finish_write x (enforced db')) := by
  have hvalid := hlog.valid p hp
  unfold Server.do_POST at hpost
  rw [Sender.body_message hvalid server hsize] at hpost
  dsimp only [Payload.message] at hpost
  unfold Server.store_write at hpost
  -- only a snapshot can say too much for the limits of the receiver
  by_cases hfits : p.Fits server.limits
  · rw [(Sender.read_request_eq_ok hvalid server client p.store_request).mpr ⟨rfl, hfits, hjails⟩]
      at hpost
    dsimp only at hpost
    rcases hperform : (p.call client.id server.limits.claims_per_client now).perform server.store db
      with ⟨result, db''⟩
    rw [show Server.request_call server client p.store_request now =
      p.call client.id server.limits.claims_per_client now from rfl, hperform] at hpost
    obtain ⟨-, ⟨e, rfl, hlimit, -⟩ | ⟨x, rfl, hacc, -⟩⟩ :=
      hstep.perform_payload hlog hp hnext hperform
    · obtain ⟨rfl, -⟩ := Prod.mk.inj hpost
      rcases hlimit with rfl | rfl
      · exact ⟨_, rfl, Or.inl (Or.inl rfl)⟩
      · exact ⟨_, rfl, Or.inl (Or.inr (Or.inl rfl))⟩
    · obtain ⟨rfl, rfl⟩ := Prod.mk.inj hpost
      exact ⟨_, rfl, Or.inr ⟨x, hacc, rfl⟩⟩
  · cases p with
    | event p => exact absurd hevents hfits
    | snapshot p =>
      have hmany : server.limits.claims_per_client < p.claims.length := not_le.mp hfits
      rw [show (Payload.snapshot p).path = .snapshot from rfl,
        read_request_too_many hvalid hmany] at hpost
      obtain ⟨rfl, -⟩ := Prod.mk.inj hpost
      exact ⟨_, rfl, Or.inl (Or.inr (Or.inr rfl))⟩

/-- Whether the tables can be enforced is a matter of the claims. -/
theorem Occasion.Enforceable.of_rows {t : Occasion} {db db' : Store.DB}
    (h : t.Enforceable db) (hrows : Handler.rows db = Handler.rows db') : t.Enforceable db' := by
  have heffective : ∀ boundary, Store.effective_ips db boundary =
      Store.effective_ips db' boundary := by
    intro boundary
    change Store.effective_ips (Handler.rows db) boundary = Store.effective_ips (Handler.rows db') boundary
    rw [hrows]
  obtain ⟨data, networks, desired_v4, desired_v6, v4, v6, hserver, hvalid, hdesired, hrest⟩ :=
    h.request
  rw [heffective] at hdesired
  exact ⟨⟨data, networks, desired_v4, desired_v6, v4, v6, hserver, hvalid, hdesired, hrest⟩,
    h.helper⟩

/-- The record of an enforcement is not part of what the sender has told the receiver. -/
theorem Coherent.of_rows {server : Server.Env} {client : Server.ClientConfig} {log : List Payload}
    {done : List ℕ} {s : State} (h : Coherent env server client log done s) {receiver : Store.DB}
    (hrows : Handler.rows receiver = Handler.rows s.receiver) :
    Coherent env server client log done { s with receiver } := by
  have hlast : Store.last_seq receiver client.id = Store.last_seq s.receiver client.id := by
    change Store.last_seq (Handler.rows receiver) client.id =
      Store.last_seq (Handler.rows s.receiver) client.id
    rw [hrows]
  have hstep : InStep server.store client.id log (Handler.rows receiver) := by
    rw [hrows]
    exact ⟨h.in_step.last, h.in_step.claims, h.in_step.events, h.in_step.snapshots⟩
  exact @Coherent.after_receiver env server client log done s h receiver []
    ⟨hstep.last, hstep.claims, hstep.events, hstep.snapshots⟩ hlast.ge (fun m r hr => (by cases hr))

/-- How the enforcement after a write ends, as `_finish_write` gets to know it. -/
def enforced_at (service : Handler.Service) (client : Handler.RegisteredClient) (t : Occasion)
    (db : Store.DB) : Except Text ℕ :=
  Handler.outcome_of (Handler.enforce_and_count service.helper t.moment.surroundings client.id
    ⟨db, t.pf, t.last_index⟩).1

/-- The receiver's side of a call is a step of the system, apart from the record it keeps. -/
theorem answer_eq {db : Store.DB} {t : Occasion} {m : Message}
    (hserved : Store.Served service.server.store db) (ht : t.Undisturbed)
    (hbody : m.body.length ≤ Sender.MAX_EVENT_BYTES) :
    (answer service client db t m).1 = (Server.do_POST service.server client.toClientConfig db m.path
        m.body t.moment.now (enforced_at service client t)).1 ∧
      Handler.rows (answer service client db t m).2 = Handler.rows (Server.do_POST service.server
        client.toClientConfig db m.path m.body t.moment.now (enforced_at service client t)).2 ∧
      Store.Served service.server.store (answer service client db t m).2 :=
  Handler.post_framed service client client.cert_sha256.head? m.path m.body t.moment
    ⟨db, t.pf, t.last_index⟩ hserved hbody ht.writes

/-- **What the receiver answers to a payload.** `post_framed` turns the request into a call of
`Server.do_POST` with the outcome of the enforcement, so the reply is a refusal for a limit or
the end of `_finish_write`; and `enforce_and_count_iff` says which of the two ends it is. -/
theorem answer_spec {log : List Payload} {p : Payload} {db : Store.DB} {t : Occasion}
    (hlog : Consistent log) (hstep : InStep service.server.store client.id log db) (hp : p ∈ log)
    (hnext : p.seq ≤ Store.last_seq db client.id + 1)
    (hbody : (p.message env).body.length ≤ Sender.MAX_EVENT_BYTES)
    (hsize : (p.message env).body.length ≤ service.server.limits.body_bytes)
    (hevents : 1 ≤ service.server.limits.events_per_request)
    (hjails : ∀ jail ∈ p.jails, StartsAlphanumeric jail ∧ jail ∈ client.allowed_jails)
    (hserved : Store.Served service.server.store db) (ht : t.Undisturbed) :
    Settled t (answer service client db t (p.message env)) := by
  obtain ⟨hreply, hrows, -⟩ := @answer_eq service client _ _ (p.message env) hserved ht hbody
  rcases hpost : Server.do_POST service.server client.toClientConfig db (p.message env).path
    (p.message env).body t.moment.now (enforced_at service client t) with ⟨response, db'⟩
  have hserved' := @do_POST_served service.server client.toClientConfig _ (p.message env).path
    (p.message env).body t.moment.now (enforced_at service client t) hserved
  rw [hpost] at hreply hrows hserved'
  dsimp only at hreply hrows hserved'
  obtain ⟨r, rfl, hlimit | ⟨x, haccepted, rfl⟩⟩ :=
    do_POST_cases hlog hstep hp hnext hsize hevents hjails hpost
  · exact ⟨r, hreply, Or.inr (Or.inl hlimit)⟩
  · refine ⟨_, hreply, ?_⟩
    have hiff := Handler.enforce_and_count_iff service.helper t.moment.surroundings client.id
      (w := ⟨db', t.pf, t.last_index⟩) hserved' ht.enforcement
    have hmoved : t.Enforceable (answer service client db t (p.message env)).2 ↔ t.Enforceable db' :=
      ⟨fun henforceable => henforceable.of_rows hrows,
        fun henforceable => henforceable.of_rows hrows.symm⟩
    -- the enforcement ends well or not, and `_finish_write` says so
    rw [hmoved, enforced_at]
    by_cases hok : t.Enforceable db'
    · obtain ⟨count, hcount⟩ := hiff.mpr hok
      rw [hcount]
      exact Or.inl ⟨acknowledges_finish_write.mpr ⟨haccepted, count, rfl⟩, hok⟩
    · refine Or.inr (Or.inr ⟨?_, hok⟩)
      generalize hresult : (Handler.enforce_and_count service.helper t.moment.surroundings client.id
        ⟨db', t.pf, t.last_index⟩).1 = result at hiff
      cases result with
      | ok count => exact absurd (hiff.mp ⟨count, rfl⟩) hok
      | error e => cases e <;> rfl

theorem queue_delivered {env : Sender.Env} {db : Sender.DB} {row : OutboxRow} {rest : List OutboxRow}
    (now : ℚ) (hpending : pending db = row :: rest) :
    queue (Sender.finish_attempt env db row now true) = rest.map OutboxRow.seq := by
  rw [← pending_delivered now hpending]
  rfl

theorem queue_retried {env : Sender.Env} {db : Sender.DB} {row : OutboxRow} {now : ℚ} :
    queue (Sender.finish_attempt env db row now false) = queue db := by
  obtain ⟨f, hf, hretried⟩ := pending_retried db row.id (row.attempts + 1) now
    (env.backoff.delay (row.attempts + 1)) "delivery failure".toList
  have hmap : (pending db).map (OutboxRow.seq ∘ f) = (pending db).map OutboxRow.seq :=
    List.map_congr_left (fun r _ => (hf env r).1)
  rw [queue, queue, ← hmap, ← List.map_map, ← hretried]
  rfl

theorem attempt_eq {db : Sender.DB} {receiver : Store.DB} {t : Occasion} {row : OutboxRow}
    {m : Message} (hdue : next_due db t.now = some row) (hm : row_message env row = .ok m) :
    attempt env service client ⟨db, receiver⟩ t =
      .ok ((answer service client receiver t m).1,
        ⟨Sender.finish_attempt env db row t.now
          ((answer service client receiver t m).1.any acknowledges),
          (answer service client receiver t m).2⟩) := by
  obtain ⟨request, hrequest, hsend⟩ := Store.bind_eq_ok.mp hm
  unfold attempt Sender.process_once due_message
  rw [hdue]
  dsimp only [Option.bind]
  rw [hrequest, hm]
  dsimp only [Except.map, Except.toOption]
  rw [hsend]

/-- What an end of a call means for the queue: an acknowledged row leaves it, and nothing else
does. -/
inductive Answered (t : Occasion) (db : Store.DB) :
    Option Server.Response → List ℕ → List ℕ → Prop
  | acknowledged {r : Server.Response} {n : ℕ} {rest : List ℕ} (h : acknowledges r = true)
      (henforceable : t.Enforceable db) : Answered t db (some r) (n :: rest) rest
  | waits {r : Server.Response} {n : ℕ} {rest : List ℕ} (h : acknowledges r = false)
      (hcause : LimitRefusal r ∨ r.status = 503 ∧ ¬ t.Enforceable db) :
      Answered t db (some r) (n :: rest) (n :: rest)

theorem Answered.settled {t : Occasion} {db : Store.DB} {reply : Option Server.Response}
    {before after : List ℕ} (h : Answered t db reply before after) : Settled t (reply, db) := by
  cases h with
  | acknowledged hack henforceable => exact ⟨_, rfl, Or.inl ⟨hack, henforceable⟩⟩
  | waits hack hcause => exact ⟨_, rfl, Or.inr hcause⟩

theorem not_acknowledges_status {r : Server.Response} (h : r.status = 503) :
    acknowledges r = false := by
  rw [acknowledges, h]
  rfl

theorem row_message_length {row : OutboxRow} {m : Message} (h : row_message env row = .ok m) :
    m.body.length ≤ Sender.MAX_EVENT_BYTES := by
  obtain ⟨request, -, hsend⟩ := Store.bind_eq_ok.mp h
  rw [send_request] at hsend
  generalize Sender._json_bytes env.floats _ = body at hsend
  by_cases hsize : Sender.MAX_EVENT_BYTES < body.length
  · rw [if_pos hsize] at hsend
    cases hsend
  · rw [if_neg hsize] at hsend
    cases hsend
    exact not_lt.mp hsize

/-- Handling a message that was sent is a step of the system. -/
theorem answer_coherent {log : List Payload} {done : List ℕ} {s : State} {t : Occasion} {m : Message}
    (h : Coherent env service.server client.toClientConfig log done s) (hsent : m ∈ s.sent)
    (hserved : Store.Served service.server.store s.receiver) (ht : t.Undisturbed)
    (hbody : m.body.length ≤ Sender.MAX_EVENT_BYTES) :
    Coherent env service.server client.toClientConfig log done
        { s with
          receiver := (answer service client s.receiver t m).2
          replies := (answer service client s.receiver t m).1.toList.map (m, ·) ++ s.replies } ∧
      Store.Served service.server.store (answer service client s.receiver t m).2 := by
  obtain ⟨hreply, hrows, hserved'⟩ := @answer_eq service client _ _ m hserved ht hbody
  rcases hpost : Server.do_POST service.server client.toClientConfig s.receiver m.path m.body
    t.moment.now (enforced_at service client t) with ⟨response, receiver⟩
  rw [hpost] at hreply hrows
  have hafter := h.after_process hsent hpost
  rw [hreply]
  exact ⟨hafter.of_rows hrows, hserved'⟩

theorem Settled.of_acknowledged {t : Occasion} {result : Option Server.Response × Store.DB}
    (h : Settled t result) (hack : result.1.any acknowledges = true) :
    t.Enforceable result.2 ∧ ∀ r, result.1 = some r → ¬ LimitRefusal r := by
  obtain ⟨r, hr, hends⟩ := h
  rw [hr, Option.any_some] at hack
  refine ⟨?_, fun r' hr' hlimit => ?_⟩
  · rcases hends with ⟨-, henforceable⟩ | hlimit | ⟨hstatus, -⟩
    · exact henforceable
    · rw [hlimit.not_acknowledges] at hack
      cases hack
    · rw [not_acknowledges_status hstatus] at hack
      cases hack
  · rw [hr] at hr'
    cases hr'
    rw [hlimit.not_acknowledges] at hack
    cases hack

/-- What waits after an attempt has waited before it, with the same message. -/
theorem pending_finish_attempt {db : Sender.DB} {row : OutboxRow} {rest : List OutboxRow} {now : ℚ}
    (hpending : pending db = row :: rest) (delivered : Bool) :
    ∀ r ∈ pending (Sender.finish_attempt env db row now delivered),
      ∃ r' ∈ pending db, row_message env r = row_message env r' := by
  intro r hr
  cases delivered with
  | true =>
    have hrest := pending_delivered now hpending
    have hmem : r ∈ rest := by
      rw [← hrest]
      exact hr
    exact ⟨r, by rw [hpending]; exact List.mem_cons_of_mem _ hmem, rfl⟩
  | false =>
    obtain ⟨f, hf, hretried⟩ := pending_retried db row.id (row.attempts + 1) now
      (env.backoff.delay (row.attempts + 1)) "delivery failure".toList
    have hmem : r ∈ (pending db).map f := by
      rw [← hretried]
      exact hr
    obtain ⟨r', hr', rfl⟩ := List.mem_map.mp hmem
    exact ⟨r', hr', (hf env r').2⟩

/-- With the outcome recorded, the worker is between two calls again. -/
theorem ready_of_finish {config : SenderConfig} {log : List Payload} {done : List ℕ} {s : State}
    {row : OutboxRow} {rest : List OutboxRow} {now : ℚ} {delivered : Bool}
    (h : Coherent env service.server client.toClientConfig log done s)
    (hstep : Step env config service.server client.toClientConfig s
      (.sender (.finish row now delivered))
      { s with sender := ⟨Sender.finish_attempt env s.sender.db row now delivered, s.sender.calls, none⟩ })
    (hsending : s.sender.sending = some row) (hpending : pending s.sender.db = row :: rest)
    (hordered : Ordered s.sender.db)
    (hfits : ∀ r ∈ pending s.sender.db, ∃ m, row_message env r = .ok m ∧
      m.body.length ≤ service.server.limits.body_bytes)
    (hserved : Store.Served service.server.store s.receiver) :
    Ready env service client log
      ⟨Sender.finish_attempt env s.sender.db row now delivered, s.receiver⟩ := by
  have hcoherent := coherent_step h hstep
  change Coherent env service.server client.toClientConfig (log ++ []) _ _ at hcoherent
  rw [List.append_nil] at hcoherent
  refine ⟨⟨_, _, hcoherent, rfl, rfl, rfl⟩, ?_, ?_, hserved⟩
  · exact ordered_step h.sound hordered
      (show Sender.Step env _ (.finish row now delivered) _ from Sender.Step.finish hsending)
  · intro r hr
    obtain ⟨r', hr', hmessage⟩ := pending_finish_attempt hpending delivered r hr
    rw [hmessage]
    exact hfits r' hr'

/-- A call at a due time delivers the head, or the head is put off and all stay. -/
theorem attempt_spec (config : SenderConfig) {log : List Payload} {s : Ends} {t : Occasion}
    (h : Ready env service client log s) (hevents : 1 ≤ service.server.limits.events_per_request)
    (hjails : ∀ p ∈ log, ∀ jail ∈ p.jails, StartsAlphanumeric jail ∧ jail ∈ client.allowed_jails)
    (ht : t.Undisturbed) (hwaits : pending s.sender ≠ [])
    (hdue : ∀ row, Sender.head s.sender = some row → row.available_at ≤ t.now) :
    ∃ reply s', attempt env service client s t = .ok (reply, s') ∧
      Ready env service client log s' ∧
      Answered t s'.receiver reply (queue s.sender) (queue s'.sender) := by
  obtain ⟨⟨done, x, hx, hdb, hreceiver, hidle⟩, hordered, hfits, hserved⟩ := h
  obtain ⟨db, receiver⟩ := s
  dsimp only at *
  subst hdb hreceiver
  obtain ⟨row, rest, hpending⟩ := List.exists_cons_of_ne_nil hwaits
  have hhead := head_eq hordered hpending
  have hnext : next_due x.sender.db t.now = some row := by
    rw [next_due, hhead, Option.filter_some, if_pos (decide_eq_true (hdue row hhead))]
  obtain ⟨m, hm, hsize⟩ := hfits row (by rw [hpending]; exact List.mem_cons_self)
  have hbody := row_message_length hm
  -- the call as steps of the system: the request goes out, and the receiver handles it
  have h1 := coherent_step hx
    (show Step env config service.server client.toClientConfig _ _ _ from
      Step.attempt (Sender.Step.next_due hidle hnext))
  change Coherent env service.server client.toClientConfig (log ++ []) (done ++ []) _ at h1
  rw [List.append_nil, List.append_nil, hm] at h1
  obtain ⟨h2, hserved'⟩ := answer_coherent h1 (show m ∈ _ from List.mem_cons_self) hserved ht hbody
  obtain ⟨⟨p, hp, hholds⟩, -⟩ := h1.sound.sending row rfl
  -- the message is that of a payload of the log, and the next one the receiver expects
  have hmessage : m = p.message env := row_message_ok hholds (h1.sound.valid p hp) hm
  subst hmessage
  have hseq : row.seq ≤ Store.last_seq x.receiver client.id + 1 := h1.sending_le rfl
  rw [hholds.seq] at hseq
  have hsettled : Settled t (answer service client x.receiver t (p.message env)) :=
    answer_spec h1.consistent h1.in_step hp hseq hbody hsize hevents (hjails p hp) hserved ht
  refine ⟨_, _, attempt_eq hnext hm, ?_⟩
  rcases hanswer : answer service client x.receiver t (p.message env) with ⟨response, receiver'⟩
  rw [hanswer] at hsettled h2 hserved'
  obtain ⟨r, hr, hends⟩ := id hsettled
  dsimp only at hr h2 hserved' ⊢
  subst hr
  rw [Option.any_some]
  have hqueue : queue x.sender.db = row.seq :: rest.map OutboxRow.seq := by
    rw [queue, hpending, List.map_cons]
  -- `process_once` marks the row as delivered, or puts it off
  by_cases hack : acknowledges r = true
  · rw [hack]
    refine ⟨ready_of_finish h2 (show Step env config service.server client.toClientConfig _
      (.sender (.finish row t.now true)) _ from
      Step.acknowledged hm (List.mem_append_left _ (List.mem_singleton.mpr rfl)) hack
        (Sender.Step.finish rfl)) rfl hpending hordered hfits hserved', ?_⟩
    rw [hqueue, queue_delivered t.now hpending]
    exact Answered.acknowledged hack (hsettled.of_acknowledged hack).1
  · have hcause := hends.resolve_left (fun h => hack h.1)
    rw [Bool.not_eq_true] at hack
    rw [hack]
    refine ⟨ready_of_finish h2 (show Step env config service.server client.toClientConfig _
      (.sender (.finish row t.now false)) _ from
      Step.work (s := { x with
        sender := { x.sender with sending := some row }
        receiver := receiver'
        sent := _
        replies := _ }) (show Local config (.finish row t.now false) from rfl)
        (fun u hu => (by cases hu)) (Sender.Step.finish rfl)) rfl hpending hordered hfits hserved', ?_⟩
    rw [queue_retried, hqueue]
    exact Answered.waits hack hcause

/-! ## Many calls

The induction is over the occasions. A call that settles its row leaves a state that is ready
again, whether the row is gone or not. -/

/-- Calls at due times, no more than there are rows: each settles its row, and the queue gets
shorter by one with each reply that acknowledges. -/
theorem attempts_spec (config : SenderConfig) {log : List Payload}
    (hevents : 1 ≤ service.server.limits.events_per_request)
    (hjails : ∀ p ∈ log, ∀ jail ∈ p.jails, StartsAlphanumeric jail ∧ jail ∈ client.allowed_jails)
    {ts : List Occasion} : ∀ {s : Ends}, Ready env service client log s →
      (∀ t ∈ ts, t.Undisturbed) → ts.length ≤ (queue s.sender).length →
      always_due env service client s ts = true →
        ∃ results s', attempts env service client s ts = .ok (results, s') ∧
          List.Forall₂ Settled ts results ∧
          queue s'.sender = (queue s.sender).drop
            (results.countP (fun result => result.1.any acknowledges)) := by
  induction ts with
  | nil =>
    intro s _ _ _ _
    exact ⟨[], s, rfl, List.Forall₂.nil, rfl⟩
  | cons t ts ih =>
    intro s hready hundisturbed hlen hdue
    rw [List.forall_mem_cons] at hundisturbed
    -- there are as many rows as calls, so one is waiting
    have hwaits : pending s.sender ≠ [] := by
      intro hnil
      rw [queue, hnil, List.length_cons] at hlen
      simp at hlen
    rw [always_due, Bool.and_eq_true] at hdue
    obtain ⟨reply, s₁, hone, hready₁, hanswered⟩ :=
      attempt_spec config hready hevents hjails hundisturbed.1 hwaits (by
        intro row hrow
        have := hdue.1
        rw [hrow, Option.all_some] at this
        exact of_decide_eq_true this)
    have hsettled := hanswered.settled
    -- an acknowledged row is gone, so there are still enough rows for the other calls
    have hlen₁ : ts.length ≤ (queue s₁.sender).length := by
      rw [List.length_cons] at hlen
      generalize queue s.sender = before at *
      generalize queue s₁.sender = after at *
      cases hanswered with
      | acknowledged hack henforceable =>
        rw [List.length_cons] at hlen
        omega
      | waits hack hcause => omega
    obtain ⟨results, s', hrest, hresults, hqueue⟩ :=
      ih hready₁ hundisturbed.2 hlen₁ (by
        have := hdue.2
        rwa [hone] at this)
    refine ⟨(reply, s₁.receiver) :: results, s', ?_, List.Forall₂.cons hsettled hresults, ?_⟩
    · rw [attempts, hone]
      dsimp only [Except.bind]
      rw [hrest]
      rfl
    · rw [hqueue]
      generalize queue s.sender = before at *
      generalize queue s₁.sender = after at *
      cases hanswered with
      | acknowledged hack henforceable =>
        rw [List.countP_cons_of_pos (by simpa using hack), List.drop_succ_cons]
      | waits hack hcause =>
        rw [List.countP_cons_of_neg (by simp [hack])]

/-- **The outbox drains, or something that does not fail keeps it.** From every state the system
can reach, when each configured jail is allowed and each waiting request is small enough, make
as many calls of `process_once` at due times as rows wait, with neither the network nor the
database nor the helper failing at any of them. Each call delivers the row at the head, or has
it refused for a limit on claims, or stores it without being able to enforce the tables, which
is answered with a 503 and is no acknowledgement (`Settled`). The rows are delivered in the
order of their numbers, one for each reply that acknowledges, and a row that is not delivered
stays at the head with all later rows behind it. So the outbox is empty in the end if no call
met a limit and after each the tables could be made what the store says. -/
theorem outbox_drains (env : Sender.Env) (config : SenderConfig) (service : Handler.Service)
    (client : Handler.RegisteredClient) (labels : List Label) (s : State) (ts : List Occasion)
    (h : Run (Step env config service.server client.toClientConfig) State.initial labels s)
    (hconfigured : ∀ a ∈ labels, a.Configured config)
    (hallowed : ∀ jail ∈ config.permanent_jails, jail.name ∈ client.allowed_jails)
    (hclient : ∀ jail ∈ client.allowed_jails, id_re jail = true)
    (hevents : 1 ≤ service.server.limits.events_per_request)
    (hfits : ∀ row ∈ pending s.sender.db, ∃ m, row_message env row = .ok m ∧
      m.body.length ≤ service.server.limits.body_bytes)
    (hundisturbed : ∀ t ∈ ts, t.Undisturbed) (hlen : ts.length = (pending s.sender.db).length)
    (hdue : always_due env service client ⟨s.sender.db, s.receiver⟩ ts = true) :
    ∃ results s', attempts env service client ⟨s.sender.db, s.receiver⟩ ts = .ok (results, s') ∧
      List.Forall₂ Settled ts results ∧
      queue s'.sender = (queue s.sender.db).drop
        (results.countP (fun result => result.1.any acknowledges)) ∧
      (List.Forall₂ (fun t result => t.Enforceable result.2 ∧
        ∀ r, result.1 = some r → ¬ LimitRefusal r) ts results → pending s'.sender = []) := by
  have hcoherent := coherent_run h
  have htidy := tidy_run h hconfigured
  have hserved := served_run h hconfigured
  have hjails : ∀ p ∈ issued labels, ∀ jail ∈ p.jails,
      StartsAlphanumeric jail ∧ jail ∈ client.allowed_jails := by
    intro p hp jail hjail
    obtain ⟨j, hj, rfl⟩ := htidy.jails p hp jail hjail
    have hmem := hallowed j hj
    have hid := hclient _ hmem
    rw [Sender.id_re_of_validJail j.valid] at hid
    exact ⟨hid, hmem⟩
  -- the worker's last call, if there was one, is over
  have hidle := coherent_step hcoherent
    (show Step env config service.server client.toClientConfig _ _ _ from
      Step.work (a := .crash) trivial (fun u hu => (by cases hu)) (Sender.Step.crash s.sender))
  have hready : Ready env service client (issued labels ++ []) ⟨s.sender.db, s.receiver⟩ :=
    ⟨⟨_, _, hidle, rfl, rfl, rfl⟩, htidy.ordered, hfits, hserved⟩
  rw [List.append_nil] at hready
  have hqueue_len : ts.length = (queue s.sender.db).length := by
    rw [hlen, queue, List.length_map]
  obtain ⟨results, s', hattempts, hsettled, hqueue⟩ :=
    attempts_spec config hevents hjails hready hundisturbed hqueue_len.le hdue
  refine ⟨results, s', hattempts, hsettled, hqueue, fun hgood => ?_⟩
  -- with both obstacles away every reply acknowledges
  have hall : results.countP (fun result => result.1.any acknowledges) = results.length := by
    rw [List.countP_eq_length]
    clear hattempts hqueue hlen hdue hqueue_len hundisturbed
    induction hsettled with
    | nil => exact fun result hresult => (by cases hresult)
    | @cons t result ts results hone hrest ih =>
      obtain ⟨⟨henforceable, hlimit⟩, hgood⟩ := List.forall₂_cons.mp hgood
      rw [List.forall_mem_cons]
      refine ⟨?_, ih hgood⟩
      obtain ⟨r, hr, ⟨hack, -⟩ | hrefused | ⟨-, hnot⟩⟩ := hone
      · rw [hr]
        exact hack
      · exact absurd hrefused (hlimit r hr)
      · exact absurd henforceable hnot
  rw [hall, ← hsettled.length_eq, hqueue_len, List.drop_length] at hqueue
  exact List.map_eq_nil_iff.mp hqueue

end Drain

/-! ## Three events and a limit

The same outbox at two receivers: with a limit of one claim the second ban is in the way of the
release that would make room for it, and with a whitelist that cannot be parsed nothing is
delivered. -/

/-- The smaller check a run can evaluate. -/
theorem fits_of_all {env : Sender.Env} {bytes : ℕ} {rows : List OutboxRow}
    (h : rows.all (fun row => (row_message env row).toOption.any
      (fun m => m.body.length ≤ bytes)) = true) :
    ∀ row ∈ rows, ∃ m, row_message env row = .ok m ∧ m.body.length ≤ bytes := by
  intro row hrow
  have hone := List.all_eq_true.mp h row hrow
  cases hm : row_message env row with
  | error e =>
    rw [hm] at hone
    cases hone
  | ok m =>
    rw [hm] at hone
    exact ⟨m, rfl, of_decide_eq_true hone⟩

/-- A hook of the jail `sshd`. -/
def sample_hook (op ip : String) (ban_uuid event_uuid : Uuid4) (p : Sender.EventPayload) :
    Sender.Label :=
  .enqueue op.toList "sshd".toList ip.toList 0 ban_uuid event_uuid (.ok (some p))

/-- The system after a hook. -/
def after_hook (s : State) (op ip : String) (ban_uuid event_uuid : Uuid4)
    (p : Sender.EventPayload) : State where
  sender := { s.sender with
    db := (Sender.enqueue Sender.sample_sender s.sender.db op.toList "sshd".toList ip.toList 0
      ban_uuid event_uuid).2 }
  receiver := s.receiver
  sent := s.sent
  replies := s.replies
  drawn := (sample_hook op ip ban_uuid event_uuid p).drawn ++ s.drawn

theorem step_hook {server : Server.Env} {client : Server.ClientConfig} (s : State) (op ip : String)
    (ban_uuid event_uuid : Uuid4) (p : Sender.EventPayload)
    (h : (Sender.enqueue Sender.sample_sender s.sender.db op.toList "sshd".toList ip.toList 0
      ban_uuid event_uuid).1 = .ok (some p))
    (hfresh : ∀ u ∈ (sample_hook op ip ban_uuid event_uuid p).drawn, u ∉ s.drawn) :
    Step Sender.sample_sender (Sender.sample_config "sshd" Sender.valid_sshd) server client s
      (.sender (sample_hook op ip ban_uuid event_uuid p))
      (after_hook s op ip ban_uuid event_uuid p) :=
  Step.work trivial hfresh (Sender.Step.enqueue (Prod.ext h rfl))

/-- A first address is banned. -/
def sample_first : State := after_hook State.initial "ban" "203.0.113.7" Sender.sample_uuid
  Sender.sample_uuid' (Sender.sample_event "sshd".toList "203.0.113.7".toList)

def sample_first_label : Label := .sender (sample_hook "ban" "203.0.113.7" Sender.sample_uuid
  Sender.sample_uuid' (Sender.sample_event "sshd".toList "203.0.113.7".toList))

theorem step_sample_first (server : Server.Env) (client : Server.ClientConfig) :
    Step Sender.sample_sender (Sender.sample_config "sshd" Sender.valid_sshd) server client
      State.initial sample_first_label sample_first :=
  step_hook State.initial "ban" "203.0.113.7" _ _ _ (by decide) (fun u _ hu => (by cases hu))

/-- A second one. -/
def sample_second_event : Sender.EventPayload :=
  ⟨(Uuid4.nth 1).text, 2, .ban, "sshd".toList, (Uuid4.nth 0).text, "203.0.113.8".toList⟩

/-- The first one is released. -/
def sample_release : Sender.EventPayload :=
  ⟨(Uuid4.nth 2).text, 3, .unban, "sshd".toList, Sender.sample_uuid.text, "203.0.113.7".toList⟩

def sample_second : State :=
  after_hook sample_first "ban" "203.0.113.8" (Uuid4.nth 0) (Uuid4.nth 1) sample_second_event

def sample_waiting : State :=
  after_hook sample_second "unban" "203.0.113.7" (Uuid4.nth 3) (Uuid4.nth 2) sample_release

def sample_waiting_labels : List Label := [sample_first_label,
  .sender (sample_hook "ban" "203.0.113.8" (Uuid4.nth 0) (Uuid4.nth 1) sample_second_event),
  .sender (sample_hook "unban" "203.0.113.7" (Uuid4.nth 3) (Uuid4.nth 2) sample_release)]

theorem run_sample_waiting (server : Server.Env) (client : Server.ClientConfig) :
    Run (Step Sender.sample_sender (Sender.sample_config "sshd" Sender.valid_sshd) server client)
      State.initial sample_waiting_labels sample_waiting :=
  Run.cons (step_sample_first server client) (Run.cons
    (step_hook sample_first "ban" "203.0.113.8" _ _ _ (by decide +kernel) (by decide +kernel))
    (Run.single (step_hook sample_second "unban" "203.0.113.7" _ _ _ (by decide +kernel)
      (by decide +kernel))))

theorem sample_waiting_configured : ∀ a ∈ sample_waiting_labels,
    a.Configured (Sender.sample_config "sshd" Sender.valid_sshd) := by
  have hsshd : ∃ j ∈ (Sender.sample_config "sshd" Sender.valid_sshd).permanent_jails,
      j.name = "sshd".toList := ⟨_, List.mem_cons_self, rfl⟩
  intro a ha
  simp only [sample_waiting_labels, List.mem_cons, List.not_mem_nil, or_false] at ha
  rcases ha with rfl | rfl | rfl <;> exact hsshd

/-- The receiver, with the client's certificate. -/
def sample_service (limits : Server.Limits) : Handler.Service where
  server := { store := Store.sample_env, limits, max_depth_ge := three_le_max_depth }
  helper := Enforcer.sample_env
  clients := []

def sample_registered : Handler.RegisteredClient :=
  { sample_client with cert_sha256 := ["f1".toList] }

/-- A call at which nothing fails; both readers find the same whitelist. -/
def sample_occasion (now : ℚ) (whitelist : String) : Occasion where
  now := now
  moment := {
    monotonic := now
    now := now
    write_fails := false
    surroundings := { Enforcer.sample_surroundings with
      server_file := .ok whitelist.toList
      helper_file := .ok whitelist.toList
      exchanges := [⟨PfHelper.MAX_MESSAGE, true, some HelperClient.MAX_HELPER_MESSAGE⟩] } }
  pf := ⟨fun _ => [], []⟩
  last_index := none

theorem sample_occasion_undisturbed (now : ℚ) (whitelist : String) :
    (sample_occasion now whitelist).Undisturbed where
  writes := rfl
  enforcement := {
    database := fun _ => rfl
    exchange := ⟨_, _, _, rfl, le_rfl, rfl, rfl, le_rfl⟩
    outcomes := fun _ => rfl
    hosts := fun _ => ⟨[], rfl⟩ }

/-- One ban waits and one call delivers it. -/
theorem outbox_drains_one : ∃ results s',
    attempts Sender.sample_sender (sample_service {}) sample_registered
      ⟨sample_first.sender.db, sample_first.receiver⟩ [sample_occasion 0 "192.0.2.0/30\n"] =
        .ok (results, s') ∧
    pending s'.sender = [] := by
  obtain ⟨results, s', hattempts, hsettled, -, hempty⟩ := outbox_drains Sender.sample_sender
    (Sender.sample_config "sshd" Sender.valid_sshd) (sample_service {}) sample_registered
    [sample_first_label] sample_first [sample_occasion 0 "192.0.2.0/30\n"]
    (Run.single (step_sample_first _ _))
    (fun a ha => by
      rw [List.mem_singleton.mp ha]
      exact ⟨_, List.mem_cons_self, rfl⟩)
    (by decide) (by decide) (by decide) (fits_of_all (by decide +kernel))
    (fun t ht => by
      rw [List.mem_singleton.mp ht]
      exact sample_occasion_undisturbed 0 _)
    (by decide +kernel) (by decide +kernel)
  have hacks : (attempts Sender.sample_sender (sample_service {}) sample_registered
      ⟨sample_first.sender.db, sample_first.receiver⟩
        [sample_occasion 0 "192.0.2.0/30\n"]).toOption.all
        (fun r => r.1.all (fun result => result.1.any acknowledges)) = true := by decide +kernel
  rw [hattempts] at hacks
  refine ⟨results, s', hattempts, hempty ?_⟩
  -- the one call is acknowledged, so nothing stood in its way
  obtain ⟨result, rest, hone, hrest, rfl⟩ := List.forall₂_cons_left_iff.mp hsettled
  cases List.forall₂_nil_left_iff.mp hrest
  have hack := List.all_eq_true.mp hacks result List.mem_cons_self
  exact List.Forall₂.cons (hone.of_acknowledged hack) List.Forall₂.nil

/-- Two addresses are banned and the first is released, with a receiver that takes one claim from
each client. Three calls at due times deliver the first ban; the second is refused twice, and the
release, which would make room for it, stays behind it. And with a whitelist that cannot be parsed
the first row is stored but not delivered. -/
theorem release_kept_waiting :
    Run (Step Sender.sample_sender (Sender.sample_config "sshd" Sender.valid_sshd)
      (sample_service { claims_per_client := 1 }).server sample_client) State.initial
      sample_waiting_labels sample_waiting ∧
    (∀ a ∈ sample_waiting_labels, a.Configured (Sender.sample_config "sshd" Sender.valid_sshd)) ∧
    (∀ row ∈ pending sample_waiting.sender.db, ∃ m, row_message Sender.sample_sender row = .ok m ∧
      m.body.length ≤ (sample_service { claims_per_client := 1 }).server.limits.body_bytes) ∧
    (∀ now whitelist, (sample_occasion now whitelist).Undisturbed) ∧
    (pending sample_waiting.sender.db).length = 3 ∧
    always_due Sender.sample_sender (sample_service { claims_per_client := 1 }) sample_registered
      ⟨sample_waiting.sender.db, sample_waiting.receiver⟩
      [sample_occasion 0 "192.0.2.0/30\n", sample_occasion 0 "192.0.2.0/30\n",
        sample_occasion 1 "192.0.2.0/30\n"] = true ∧
    (attempts Sender.sample_sender (sample_service { claims_per_client := 1 }) sample_registered
      ⟨sample_waiting.sender.db, sample_waiting.receiver⟩
      [sample_occasion 0 "192.0.2.0/30\n", sample_occasion 0 "192.0.2.0/30\n",
        sample_occasion 1 "192.0.2.0/30\n"]).toOption.map (fun r => queue r.2.sender) =
          some [2, 3] ∧
    (attempts Sender.sample_sender (sample_service {}) sample_registered
      ⟨sample_waiting.sender.db, sample_waiting.receiver⟩ [sample_occasion 0 "localhost\n"]).toOption.map
        (fun r => queue r.2.sender) = some [1, 2, 3] :=
  ⟨run_sample_waiting _ _, sample_waiting_configured, fits_of_all (by decide +kernel),
    sample_occasion_undisturbed, by decide +kernel, by decide +kernel, by decide +kernel,
    by decide +kernel⟩

end F2bguard.Delivery
