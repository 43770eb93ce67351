/-
One sender and one receiver, with a network in between.

The network keeps every message that was ever sent. The receiver may process any of them at
any time and as often as it likes, and any reply may get lost; the worker marks a row as
delivered when an acknowledging reply to its message has come. Snapshots are made of what
`enumerate_permanent_jails` returned, UUIDs are new when they are drawn, and other clients
and the pruning of the histories go on meanwhile.

In every state of every run the receiver has applied the payloads up to its `last_seq`, each
once and in the order of their numbers, rows that are marked delivered are among them, and
no copy of a message raises a conflict (`receiver_applies_log`).
-/
import F2bguard.Identities
import F2bguard.Fence

set_option autoImplicit false

namespace F2bguard.Delivery

open F2bguard.PyText F2bguard.PyJson F2bguard.Claims F2bguard.Tables F2bguard.Lifecycle
open F2bguard.Runs
open F2bguard.Sender (Payload OutboxRow Message SenderError SenderConfig row_request send_request
  Sound Distinct Consistent InStep upto Holds)

/-! ## The system

A state is the state of both ends and everything that was ever sent. Since nothing sent is ever
removed, a message that is lost is one that is never processed, and one that is delayed is one
that is processed late. -/

/-- The message of a row. It depends on the row alone, so every attempt sends the same. -/
def row_message (env : Sender.Env) (row : OutboxRow) : Except SenderError Message :=
  (row_request env row).bind (send_request env)

/-- The checks of `HTTPSClient.send` on a reply: its status and the field `accepted`. A reply that
was stored but not enforced is a 503, and is no acknowledgement although it says `accepted`. -/
def acknowledges (response : Server.Response) : Bool :=
  200 ≤ response.status && response.status < 300 &&
    match response.body with
    | .obj items => match get_item items "accepted".toList with
      | some (.bool true) => true
      | _ => false
    | _ => false

structure State where
  sender : Sender.State
  receiver : Store.DB
  /-- every message that was ever sent -/
  sent : List Message
  /-- every reply that was ever sent, with the message it answers -/
  replies : List (Message × Server.Response)
  /-- the UUIDs that were drawn -/
  drawn : List Text

def State.initial : State := ⟨Sender.State.initial, Store.DB.initial, [], [], []⟩

/-- What happens in one step: something at the sender, a message processed, or something at the
receiver that the sender has no part in. -/
inductive Label
  | sender (a : Sender.Label)
  | process (message : Message) (now : ℚ)
  | prune_history (now : ℚ)
  | other (call : Store.Call)

/-- The steps of the sender that need no network. A failed attempt is one of them: it may
have lost its request or its reply. -/
def Local (config : SenderConfig) : Sender.Label → Prop
  | .begin_snapshot claims _ =>
      ∃ runner, Sender.enumerate_permanent_jails config runner = .ok claims
  | .next_due _ => False
  | .finish _ _ delivered => delivered = false
  | _ => True

/-- The steps. The sender marks a row only when there is a reply to a message of that row which
acknowledges it, whenever that reply was sent. -/
inductive Step (env : Sender.Env) (config : SenderConfig) (server : Server.Env)
    (client : Server.ClientConfig) : State → Label → State → Prop
  | work {s : State} {a : Sender.Label} {sender : Sender.State} (hlocal : Local config a)
      (hfresh : ∀ u ∈ a.drawn, u ∉ s.drawn) (h : Sender.Step env s.sender a sender) :
      Step env config server client s (.sender a)
        { s with sender, drawn := a.drawn ++ s.drawn }
  /-- the first half of `process_once` -/
  | attempt {s : State} {now : ℚ} {row : OutboxRow}
      (h : Sender.Step env s.sender (.next_due now) { s.sender with sending := some row }) :
      Step env config server client s (.sender (.next_due now))
        { s with
          sender := { s.sender with sending := some row }
          sent := (row_message env row).toOption.toList ++ s.sent }
  /-- the other half, when a reply acknowledges the write -/
  | acknowledged {s : State} {row : OutboxRow} {now : ℚ} {message : Message}
      {response : Server.Response} {sender : Sender.State}
      (hmessage : row_message env row = .ok message) (hreply : (message, response) ∈ s.replies)
      (hack : acknowledges response = true)
      (h : Sender.Step env s.sender (.finish row now true) sender) :
      Step env config server client s (.sender (.finish row now true)) { s with sender }
  /-- a copy of a message arrives; the reply may come or not -/
  | process {s : State} {message : Message} {now : ℚ} {enforced : Store.DB → Except Text ℕ}
      {response : Option Server.Response} {receiver : Store.DB} (hsent : message ∈ s.sent)
      (h : Server.do_POST server client s.receiver message.path message.body now enforced =
        (response, receiver)) :
      Step env config server client s (.process message now)
        { s with receiver, replies := response.toList.map (message, ·) ++ s.replies }
  | prune_history (s : State) (now : ℚ) :
      Step env config server client s (.prune_history now)
        { s with receiver := (Store.prune_history server.store s.receiver now).2 }
  | other {s : State} {call : Store.Call} (h : call.client_id ≠ client.id) :
      Step env config server client s (.other call)
        { s with receiver := (call.perform server.store s.receiver).2 }

/-- What a step of the system is for the sender. -/
def Label.of_sender : Label → Option Sender.Label
  | .sender a => some a
  | _ => none

/-- The payloads of a run. -/
def issued (labels : List Label) : List Payload :=
  Sender.issued (labels.filterMap Label.of_sender)

/-- The numbers of the rows a run marks delivered. -/
def delivered (labels : List Label) : List ℕ :=
  Sender.delivered (labels.filterMap Label.of_sender)

/-- What a step writes. -/
def Label.issued : Label → List Payload
  | .sender a => a.issued.toList
  | _ => []

def Label.delivered : Label → List ℕ
  | .sender a => a.delivered.toList
  | _ => []

theorem issued_snoc (labels : List Label) (a : Label) :
    issued (labels ++ [a]) = issued labels ++ a.issued := by
  rw [issued, List.filterMap_append]
  cases a with
  | sender a => exact Sender.issued_snoc _ a
  | _ => exact (congrArg Sender.issued (List.append_nil _)).trans (List.append_nil _).symm

theorem delivered_snoc (labels : List Label) (a : Label) :
    delivered (labels ++ [a]) = delivered labels ++ a.delivered := by
  rw [delivered, List.filterMap_append]
  cases a with
  | sender a => exact Sender.delivered_snoc _ a
  | _ => exact (congrArg Sender.delivered (List.append_nil _)).trans (List.append_nil _).symm

/-! ## Messages and replies

A message determines its payload, because it holds the number. So an acknowledgement is one of the
payload it answers, and cannot be taken for that of another. -/

theorem row_message_eq {env : Sender.Env} {row : OutboxRow} {p : Payload} (hrow : Holds env row p)
    (h : p.Valid) :
    row_message env row =
      if Sender.MAX_EVENT_BYTES < (p.message env).body.length then
        Sender.value_error "request is too large".toList
      else .ok (p.message env) := by
  rw [row_message, Sender.row_request_eq hrow h]
  exact Sender.send_request_eq env p

theorem row_message_ok {env : Sender.Env} {row : OutboxRow} {p : Payload} {message : Message}
    (hrow : Holds env row p) (h : p.Valid) (hmessage : row_message env row = .ok message) :
    message = p.message env := by
  rw [row_message_eq hrow h] at hmessage
  split at hmessage
  · cases hmessage
  · exact (Except.ok.inj hmessage).symm

/-- Different numbers make different messages. -/
theorem seq_eq_of_message {env : Sender.Env} {p q : Payload} (hp : p.Valid) (hq : q.Valid)
    (h : p.message env = q.message env) : p.seq = q.seq := by
  have hread : ∀ {p : Payload}, p.Valid →
      loads (Sender.plain_decoder env) (p.message env).body = .ok p.request :=
    fun hp => loads_dumps _ _ (Sender.plain_decoder_keepsObjects env) (Payload.wire_request hp)
      ((Payload.nesting_request _).trans env.max_depth_ge)
  have hrequest : p.request = q.request := by
    have := hread hp
    rw [h, hread hq] at this
    exact (Except.ok.inj this).symm
  have hpath : p.path = q.path := congrArg Message.path h
  cases p with
  | event p =>
    cases q with
    | snapshot q => cases hpath
    | event q =>
      simp only [Payload.request, Sender.sort_keys_event] at hrequest
      simp only [Json.obj.injEq, Json.arr.injEq, Json.int.injEq, List.cons.injEq, Prod.mk.injEq,
        Nat.cast_inj] at hrequest
      simp only [Payload.seq]
      tauto
  | snapshot p =>
    cases q with
    | event q => cases hpath
    | snapshot q =>
      simp only [Payload.request, Sender.sort_keys_snapshot] at hrequest
      simp only [Json.obj.injEq, Json.arr.injEq, Json.int.injEq, List.cons.injEq, Prod.mk.injEq,
        Nat.cast_inj] at hrequest
      simp only [Payload.seq]
      tauto

theorem not_acknowledges_error (status : ℕ) (message : Text) (h : ¬ (200 ≤ status ∧ status < 300)) :
    acknowledges (Server.error_response status message) = false := by
  unfold acknowledges Server.error_response
  by_cases h1 : 200 ≤ status
  · have h2 : ¬ status < 300 := fun h2 => h ⟨h1, h2⟩
    simp [h2]
  · simp [h1]

theorem not_acknowledges_refusal {e : Server.Refused} {response : Server.Response}
    (h : Server.refusal e = some response) : acknowledges response = false := by
  unfold Server.refusal at h
  split at h
  all_goals first
    | cases h
      exact not_acknowledges_error _ _ (by decide)
    | cases h
      rfl
    | cases h

/-- A reply of `_finish_write` acknowledges only what was stored and enforced. -/
theorem acknowledges_finish_write {result : Store.ApplyResult} {enforced : Except Text ℕ} :
    acknowledges (Server._finish_write result enforced) = true ↔
      result.accepted = true ∧ ∃ count, enforced = .ok count := by
  cases enforced with
  | error message =>
    simp [acknowledges, Server._finish_write]
  | ok count =>
    have hbody : acknowledges (Server._finish_write result (.ok count)) = result.accepted := by
      obtain ⟨accepted, duplicate, stale, last_seq⟩ := result
      cases accepted <;> rfl
    rw [hbody]
    simp

/-- How the receiver treats a copy of a payload's message: the store does not come into it
and there is no acknowledgement, or the store performs the payload's call. -/
theorem do_POST_message {env : Sender.Env} {server : Server.Env} {client : Server.ClientConfig}
    {p : Payload} (h : p.Valid) {db db' : Store.DB} {now : ℚ} {enforced : Store.DB → Except Text ℕ}
    {response : Option Server.Response}
    (hpost : Server.do_POST server client db (p.message env).path (p.message env).body now enforced =
      (response, db')) :
    (db' = db ∧ ∀ r, response = some r → acknowledges r = false) ∨
      ∃ result, (p.call client.id server.limits.claims_per_client now).perform server.store db =
        (result, db') ∧
        response = match result with
          | .error e => Server.refusal (.store e)
          | .ok x => some (Server._finish_write x (enforced db')) := by
  unfold Server.do_POST at hpost
  -- too large a body is refused before it is read
  by_cases hsize : (p.message env).body.length ≤ server.limits.body_bytes
  swap
  · have hlarge : Server._body server (p.message env).body =
        .error (some (Server.error_response 413 "request body too large".toList)) := by
      rw [Server._body, if_pos (not_le.mp hsize)]
    rw [hlarge] at hpost
    obtain ⟨rfl, rfl⟩ := Prod.mk.inj hpost
    refine Or.inl ⟨rfl, fun r hr => ?_⟩
    cases hr
    exact not_acknowledges_error _ _ (by decide)
  rw [Sender.body_message h server hsize] at hpost
  dsimp only [Payload.message] at hpost
  unfold Server.store_write at hpost
  -- what is refused by a validator does not reach the store
  cases hread : Server.read_request server client p.path p.request with
  | error e =>
    rw [hread] at hpost
    obtain ⟨rfl, rfl⟩ := Prod.mk.inj hpost
    exact Or.inl ⟨rfl, fun r hr => not_acknowledges_refusal hr⟩
  | ok request =>
    obtain ⟨rfl, -, -⟩ := (Sender.read_request_eq_ok h server client request).mp hread
    rw [hread] at hpost
    dsimp only at hpost
    right
    rcases hperform : (p.call client.id server.limits.claims_per_client now).perform server.store db
      with ⟨result, db''⟩
    rw [show Server.request_call server client p.store_request now =
      p.call client.id server.limits.claims_per_client now from rfl, hperform] at hpost
    cases result with
    | error e =>
      obtain ⟨rfl, rfl⟩ := Prod.mk.inj hpost
      exact ⟨_, rfl, rfl⟩
    | ok x =>
      obtain ⟨rfl, rfl⟩ := Prod.mk.inj hpost
      exact ⟨_, rfl, rfl⟩

/-! ## The invariant

The receiver is in step with the log, and a message that was ever sent is at most one ahead of it.
The latter holds because the worker sends a row only when all before it are marked, and a row is
marked only when it was applied. -/

section Invariant

variable {env : Sender.Env} {config : SenderConfig} {server : Server.Env}
  {client : Server.ClientConfig}

/-- What holds in every state, for the payloads issued and the numbers marked so far. -/
structure Coherent (env : Sender.Env) (server : Server.Env) (client : Server.ClientConfig)
    (log : List Payload) (done : List ℕ) (s : State) : Prop where
  sound : Sound env log done s.sender
  distinct : Distinct s.drawn log s.sender
  in_step : InStep server.store client.id log s.receiver
  /-- a payload is sent when all before it have been applied -/
  sent : ∀ m ∈ s.sent, ∃ p ∈ log, m = p.message env ∧
    p.seq ≤ Store.last_seq s.receiver client.id + 1
  /-- what is acknowledged has been applied -/
  replies : ∀ m r, (m, r) ∈ s.replies → acknowledges r = true →
    ∃ p ∈ log, m = p.message env ∧ p.seq ≤ Store.last_seq s.receiver client.id
  marked : ∀ n ∈ done, n ≤ Store.last_seq s.receiver client.id

theorem coherent_initial (env : Sender.Env) (server : Server.Env) (client : Server.ClientConfig) :
    Coherent env server client [] [] State.initial :=
  ⟨Sender.sound_initial env, Distinct.initial _, InStep.initial (by simp),
    fun m hm => (by cases hm), fun m r hr => (by cases hr), fun n hn => (by cases hn)⟩

/-- What is sent next is at most one ahead of the receiver. -/
theorem Coherent.sending_le {log : List Payload} {done : List ℕ} {s : State}
    (h : Coherent env server client log done s) {row : OutboxRow}
    (hsending : s.sender.sending = some row) : row.seq ≤ Store.last_seq s.receiver client.id + 1 := by
  obtain ⟨⟨p, hp, hholds⟩, -, -, hbefore⟩ := h.sound.sending row hsending
  by_cases hone : row.seq ≤ 1
  · omega
  · -- the number before it is in the log, and it is marked
    have hrange : row.seq - 1 ∈ log.map Payload.seq := by
      have hmem : p.seq ∈ log.map Payload.seq := List.mem_map_of_mem hp
      rw [h.sound.seqs, List.mem_range'_1] at hmem ⊢
      rw [hholds.seq] at hone ⊢
      omega
    obtain ⟨q, hq, hqseq⟩ := List.mem_map.mp hrange
    have := h.marked q.seq (hbefore q hq (by omega))
    omega

/-- The receiver moves on and stays in step. -/
theorem Coherent.after_receiver {log : List Payload} {done : List ℕ} {s : State}
    (h : Coherent env server client log done s) {receiver : Store.DB}
    {replies : List (Message × Server.Response)}
    (hstep : InStep server.store client.id log receiver)
    (hle : Store.last_seq s.receiver client.id ≤ Store.last_seq receiver client.id)
    (hreplies : ∀ m r, (m, r) ∈ replies → acknowledges r = true →
      ∃ p ∈ log, m = p.message env ∧ p.seq ≤ Store.last_seq receiver client.id) :
    Coherent env server client log done
      { s with receiver, replies := replies ++ s.replies } := by
  refine ⟨h.sound, h.distinct, hstep, ?_, ?_, fun n hn => (h.marked n hn).trans hle⟩
  · intro m hm
    obtain ⟨p, hp, hmessage, hseq⟩ := h.sent m hm
    exact ⟨p, hp, hmessage, hseq.trans (Nat.succ_le_succ hle)⟩
  · intro m r hr hack
    rcases List.mem_append.mp hr with hr | hr
    · exact hreplies m r hr hack
    · obtain ⟨p, hp, hmessage, hseq⟩ := h.replies m r hr hack
      exact ⟨p, hp, hmessage, hseq.trans hle⟩

theorem Coherent.consistent {log : List Payload} {done : List ℕ} {s : State}
    (h : Coherent env server client log done s) : Consistent log :=
  h.sound.consistent h.distinct

/-- Processing a copy of a message. -/
theorem Coherent.after_process {log : List Payload} {done : List ℕ} {s : State}
    (h : Coherent env server client log done s) {message : Message} {now : ℚ}
    {enforced : Store.DB → Except Text ℕ} {response : Option Server.Response} {receiver : Store.DB}
    (hsent : message ∈ s.sent)
    (hpost : Server.do_POST server client s.receiver message.path message.body now enforced =
      (response, receiver)) :
    Coherent env server client log done
      { s with receiver, replies := response.toList.map (message, ·) ++ s.replies } := by
  obtain ⟨p, hp, rfl, hseq⟩ := h.sent message hsent
  have hreply : ∀ m r, (m, r) ∈ response.toList.map (p.message env, ·) →
      m = p.message env ∧ response = some r := by
    intro m r hr
    obtain ⟨r', hr', heq⟩ := List.mem_map.mp hr
    cases heq
    exact ⟨rfl, Option.mem_toList.mp hr'⟩
  rcases do_POST_message (h.sound.valid p hp) hpost with ⟨rfl, hnone⟩ | ⟨result, hperform, hresponse⟩
  · refine h.after_receiver h.in_step le_rfl (fun m r hr hack => ?_)
    obtain ⟨-, hr⟩ := hreply m r hr
    rw [hnone r hr] at hack
    cases hack
  · obtain ⟨hstep, ⟨e, rfl, -, rfl⟩ | ⟨x, rfl, -, hle, hmono⟩⟩ :=
      h.in_step.perform_payload h.consistent hp hseq hperform
    · refine h.after_receiver h.in_step le_rfl (fun m r hr hack => ?_)
      obtain ⟨-, hr⟩ := hreply m r hr
      rw [hresponse] at hr
      rw [not_acknowledges_refusal hr] at hack
      cases hack
    · refine h.after_receiver hstep hmono (fun m r hr _ => ?_)
      exact ⟨p, hp, (hreply m r hr).1, hle⟩

/-- A step of the sender that needs no network. -/
theorem Coherent.after_work {log : List Payload} {done : List ℕ} {s : State}
    (h : Coherent env server client log done s) {a : Sender.Label} {sender : Sender.State}
    (hlocal : Local config a) (hfresh : ∀ u ∈ a.drawn, u ∉ s.drawn)
    (hstep : Sender.Step env s.sender a sender) :
    Coherent env server client (log ++ a.issued.toList) (done ++ a.delivered.toList)
      { s with sender, drawn := a.drawn ++ s.drawn } := by
  -- an enumeration of Fail2Ban's bans carries no identity
  have hunnamed : a.Unnamed := by
    cases a with
    | begin_snapshot claims expected_seq =>
      obtain ⟨runner, hclaims⟩ := hlocal
      exact fun claim hclaim => (Sender.enumerate_spec hclaims claim hclaim).ban_id
    | _ => trivial
  have hsound := Sender.sound_step h.sound hstep
  -- without a reply nothing is marked as delivered
  have hdone : a.delivered.toList = [] := by
    cases a with
    | finish row now delivered =>
      rw [show delivered = false from hlocal]
      rfl
    | _ => rfl
  have hin : InStep server.store client.id (log ++ a.issued.toList) s.receiver := by
    cases hissued : a.issued with
    | none =>
      rw [Option.toList_none, List.append_nil]
      exact h.in_step
    | some p =>
      refine h.in_step.append ?_
      -- the new payload has the number after the last one
      have hlen := congrArg List.length hsound.seqs
      have hseqs := hsound.seqs
      rw [hissued] at hseqs hlen
      simp only [Option.toList_some, List.length_map, List.length_append, List.length_singleton,
        List.length_range'] at hlen
      rw [← hlen, List.range'_concat, Option.toList_some, List.map_append] at hseqs
      have := List.append_inj_right hseqs (by simp)
      simp only [List.map_singleton, List.cons.injEq, and_true] at this
      omega
  refine ⟨hsound, Sender.distinct_step h.sound h.distinct hstep hunnamed hfresh, hin, ?_, ?_, ?_⟩
  · intro m hm
    obtain ⟨p, hp, hrest⟩ := h.sent m hm
    exact ⟨p, List.mem_append_left _ hp, hrest⟩
  · intro m r hr hack
    obtain ⟨p, hp, hrest⟩ := h.replies m r hr hack
    exact ⟨p, List.mem_append_left _ hp, hrest⟩
  · rw [hdone, List.append_nil]
    exact h.marked

theorem coherent_step {log : List Payload} {done : List ℕ} {s s' : State} {a : Label}
    (h : Coherent env server client log done s) (hstep : Step env config server client s a s') :
    Coherent env server client (log ++ a.issued) (done ++ a.delivered) s' := by
  cases hstep with
  | work hlocal hfresh hstep => exact h.after_work hlocal hfresh hstep
  | @attempt now row hstep =>
    have hsound := Sender.sound_step h.sound hstep
    have hdistinct := Sender.distinct_step h.sound h.distinct hstep trivial (fun u hu => (by cases hu))
    -- the row is being sent; nothing else has changed yet
    have hnow : Coherent env server client (log ++ []) (done ++ [])
        { s with sender := { s.sender with sending := some row } } := by
      rw [List.append_nil, List.append_nil]
      exact ⟨by simpa [Sender.Label.issued, Sender.Label.delivered] using hsound,
        by simpa [Sender.Label.issued, Sender.Label.drawn] using hdistinct, h.in_step, h.sent,
        h.replies, h.marked⟩
    refine ⟨hnow.sound, hnow.distinct, hnow.in_step, ?_, hnow.replies, hnow.marked⟩
    intro m hm
    rcases List.mem_append.mp hm with hm | hm
    · obtain ⟨⟨p, hp, hholds⟩, -⟩ := hnow.sound.sending row rfl
      have hle : row.seq ≤ Store.last_seq s.receiver client.id + 1 := hnow.sending_le rfl
      refine ⟨p, hp, ?_, ?_⟩
      · cases hrow : row_message env row with
        | error e =>
          rw [hrow] at hm
          cases hm
        | ok message =>
          rw [hrow] at hm
          rw [List.mem_singleton.mp hm]
          exact row_message_ok hholds (hnow.sound.valid p hp) hrow
      · rw [← hholds.seq]
        exact hle
    · exact hnow.sent m hm
  | @acknowledged row now message response sender hmessage hreply hack hstep =>
    have hsound := Sender.sound_step h.sound hstep
    have hdistinct := Sender.distinct_step h.sound h.distinct hstep trivial (fun u hu => (by cases hu))
    rw [show (Sender.Label.finish row now true).issued.toList = [] from rfl, List.append_nil]
      at hsound hdistinct
    -- the reply acknowledges a payload with this message, so with this number
    obtain ⟨q, hq, hqmessage, hle⟩ := h.replies message response hreply hack
    have hsending : s.sender.sending = some row := by
      cases hstep with
      | finish hsending => exact hsending
    obtain ⟨⟨p, hp, hholds⟩, -⟩ := h.sound.sending row hsending
    have hsame : p.seq = q.seq := by
      refine @seq_eq_of_message env p q (h.sound.valid p hp) (h.sound.valid q hq) ?_
      rw [← hqmessage]
      exact (row_message_ok hholds (h.sound.valid p hp) hmessage).symm
    rw [show (Label.sender (.finish row now true)).issued = [] from rfl, List.append_nil]
    refine ⟨hsound, hdistinct, h.in_step, h.sent, h.replies, ?_⟩
    intro n hn
    rcases List.mem_append.mp hn with hn | hn
    · exact h.marked n hn
    · rw [List.mem_singleton.mp hn, hholds.seq, hsame]
      exact hle
  | process hsent hpost =>
    change Coherent env server client (log ++ []) (done ++ []) _
    rw [List.append_nil, List.append_nil]
    exact h.after_process hsent hpost
  | prune_history now =>
    change Coherent env server client (log ++ []) (done ++ []) _
    rw [List.append_nil, List.append_nil]
    exact h.after_receiver (h.in_step.prune_history now) le_rfl
      (fun m r (hr : (m, r) ∈ []) => (by cases hr))
  -- the calls of other clients leave this client's numbers
  | @other call hother =>
    change Coherent env server client (log ++ []) (done ++ []) _
    rw [List.append_nil, List.append_nil]
    obtain ⟨hlast, hstep⟩ := h.in_step.other hother
      (Prod.mk.eta (p := call.perform server.store s.receiver)).symm
    exact h.after_receiver hstep hlast.ge (fun m r (hr : (m, r) ∈ []) => (by cases hr))

theorem coherent_run {labels : List Label} {s : State}
    (h : Run (Step env config server client) State.initial labels s) :
    Coherent env server client (issued labels) (delivered labels) s := by
  refine Run.invariant (P := fun labels s =>
    Coherent env server client (issued labels) (delivered labels) s)
    (coherent_initial env server client) ?_ h
  intro labels s₁ a s₂ _ hcoherent hstep
  rw [issued_snoc, delivered_snoc]
  exact coherent_step hcoherent hstep

/-- The checks of `do_POST` raise nothing that the store raises. -/
theorem read_request_not_store {path : Path} {raw : Json} {e : Store.StoreError} :
    Server.read_request server client path raw ≠ .error (.store e) := by
  have houter : ∀ fields, Server._outer raw fields ≠ .error (.store e) := by
    intro fields h
    unfold Server._outer at h
    split at h
    · split at h <;> cases h
    · cases h
  have hallowed : ∀ jails, Server._allowed client jails ≠ .error (.store e) := by
    intro jails h
    unfold Server._allowed at h
    split at h <;> cases h
  have hraised : ∀ {α : Type} (x : Except Raised α),
      x.mapError Server.Refused.raised ≠ .error (.store e) := by
    intro α x h
    cases x <;> cases h
  have hbind : ∀ {α β : Type} {x : Except Server.Refused α} {f : α → Except Server.Refused β},
      x ≠ .error (.store e) → (∀ a, f a ≠ .error (.store e)) → x.bind f ≠ .error (.store e) := by
    intro α β x f hx hf h
    cases x with
    | error e' =>
      cases h
      exact hx rfl
    | ok a => exact hf a h
  cases path with
  | events =>
    exact hbind (houter _) (fun body => hbind (hraised _) (fun events =>
      hbind (hallowed _) (fun _ h => (by cases h))))
  | snapshot =>
    refine hbind (houter _) (fun body => hbind (hraised _) ?_)
    rintro ⟨snapshot_id, seq, claims⟩
    exact hbind (hallowed _) (fun _ h => (by cases h))

/-- No copy of a payload's message raises a conflict. -/
theorem Coherent.no_conflict {log : List Payload} {done : List ℕ} {s : State}
    (h : Coherent env server client log done s) {m : Message} (hm : m ∈ s.sent) {raw : Json}
    (hbody : Server._body server m.body = .ok raw) (now : ℚ) (message : Text) :
    (Server.store_write server client s.receiver m.path raw now).1 ≠
      .error (.store (.conflict message)) := by
  obtain ⟨p, hp, rfl, -⟩ := h.sent m hm
  have hvalid := h.sound.valid p hp
  have hsize : (p.message env).body.length ≤ server.limits.body_bytes := by
    by_contra hlarge
    rw [Server._body, if_pos (not_le.mp hlarge)] at hbody
    cases hbody
  rw [Sender.body_message hvalid server hsize] at hbody
  cases hbody
  intro hconflict
  unfold Server.store_write at hconflict
  dsimp only [Payload.message] at hconflict
  cases hread : Server.read_request server client p.path p.request with
  | error e =>
    rw [hread] at hconflict
    have he : e = .store (.conflict message) := Except.error.inj hconflict
    rw [he] at hread
    exact read_request_not_store hread
  | ok request =>
    obtain ⟨rfl, -, -⟩ := (Sender.read_request_eq_ok hvalid server client request).mp hread
    rw [hread] at hconflict
    dsimp only at hconflict
    -- only the store raises a conflict, and it does not for a payload of the log
    cases hperform : ((p.call client.id server.limits.claims_per_client now).perform server.store
      s.receiver).1 with
    | ok x =>
      rw [show Server.request_call server client p.store_request now =
        p.call client.id server.limits.claims_per_client now from rfl, hperform] at hconflict
      cases hconflict
    | error err =>
      rw [show Server.request_call server client p.store_request now =
        p.call client.id server.limits.claims_per_client now from rfl, hperform] at hconflict
      cases hconflict
      rcases h.in_step.admitted h.consistent hp hperform with hlimit | hlimit <;> cases hlimit

/-- **The receiver applies the log.** In every state of every run: the numbers of the issued
payloads count up to the sender's; the claims of the client are those of the payloads up to
`last_seq`, applied once each in the order of their numbers; `last_seq` is not beyond the sender's
number; rows marked delivered are not beyond `last_seq`; and no copy of a sent message would raise
a conflict. Nothing is assumed about the network, the limits of the receiver or the order in which
copies arrive. -/
theorem receiver_applies_log (env : Sender.Env) (config : SenderConfig) (server : Server.Env)
    (client : Server.ClientConfig) (labels : List Label) (s : State)
    (h : Run (Step env config server client) State.initial labels s) :
    (issued labels).map Payload.seq = List.range' 1 s.sender.db.seq ∧
      Store.claim_set s.receiver client.id = applyAll (fun _ => none)
        ((upto (issued labels) (Store.last_seq s.receiver client.id)).flatMap Payload.changes) ∧
      Store.last_seq s.receiver client.id ≤ s.sender.db.seq ∧
      (∀ r ∈ s.sender.db.outbox.rows, r.delivered_at.isSome →
        r.seq ≤ Store.last_seq s.receiver client.id) ∧
      ∀ m ∈ s.sent, ∀ raw, Server._body server m.body = .ok raw → ∀ now message,
        (Server.store_write server client s.receiver m.path raw now).1 ≠
          .error (.store (.conflict message)) := by
  have hcoherent := coherent_run h
  refine ⟨hcoherent.sound.seqs, hcoherent.in_step.claims, ?_, ?_, ?_⟩
  · have hlen := congrArg List.length hcoherent.sound.seqs
    rw [List.length_map, List.length_range'] at hlen
    rw [← hlen]
    exact hcoherent.in_step.last
  · intro r hr hsome
    exact hcoherent.marked r.seq (hcoherent.sound.marked r hr hsome)
  · intro m hm raw hbody now message
    exact hcoherent.no_conflict hm hbody now message

end Invariant

/-! ## A ban that is delivered twice

The message of one ban is processed, and processed again before the worker has read the first
reply. -/

def sample_server : Server.Env where
  store := Store.sample_env
  max_depth_ge := three_le_max_depth

def sample_client : Server.ClientConfig := ⟨"web1".toList, ["sshd".toList]⟩

def sample_payload : Payload := .event (Sender.sample_event "sshd".toList "203.0.113.7".toList)

def sample_message : Message := sample_payload.message Sender.sample_sender

/-- The row of the payload. -/
def sample_row : OutboxRow :=
  Sender.payload_row Sender.sample_sender Sender.DB.initial sample_payload 0

def sample_labels : List Label := [
  .sender (.enqueue "ban".toList "sshd".toList "203.0.113.7".toList 0 Sender.sample_uuid
    Sender.sample_uuid' (.ok (some (Sender.sample_event "sshd".toList "203.0.113.7".toList)))),
  .sender (.next_due 0), .process sample_message 0, .process sample_message 1,
  .sender (.finish sample_row 2 true)]

/-- The system when the message is on its way. -/
def sample_sent : State where
  sender := ⟨Sender.sample_banned.db, [], some sample_row⟩
  receiver := Store.DB.initial
  sent := [sample_message]
  replies := []
  drawn := [Sender.sample_uuid.text, Sender.sample_uuid'.text]

theorem run_sample_sent : Run (Step Sender.sample_sender
    (Sender.sample_config "sshd" Sender.valid_sshd) sample_server sample_client)
    State.initial (sample_labels.take 2) sample_sent := by
  have hcall : Sender.enqueue Sender.sample_sender Sender.DB.initial "ban".toList "sshd".toList
      "203.0.113.7".toList 0 Sender.sample_uuid Sender.sample_uuid' =
        (.ok (some (Sender.sample_event "sshd".toList "203.0.113.7".toList)),
          Sender.sample_banned.db) := Prod.ext (by decide) rfl
  have henqueue := @Sender.Step.enqueue Sender.sample_sender Sender.State.initial _ _ _ _ _ _ _ _ hcall
  have hdue : Sender.next_due Sender.sample_banned.db 0 = some sample_row := by decide +kernel
  have hmessage : (row_message Sender.sample_sender sample_row).toOption.toList = [sample_message] := by
    decide +kernel
  have hattempt := @Step.attempt Sender.sample_sender
    (Sender.sample_config "sshd" Sender.valid_sshd) sample_server sample_client
    { sample_sent with sender := Sender.sample_banned, sent := [] } 0 sample_row
    (Sender.Step.next_due rfl hdue)
  rw [hmessage] at hattempt
  exact Run.cons (Step.work (show Local _ (.enqueue _ _ _ _ _ _ _) from trivial)
    (fun u _ hu => (by cases hu)) henqueue) (Run.single hattempt)

/-- The first reply comes back although a second copy is processed meanwhile. -/
theorem run_sample {r : Server.Response} {db : Store.DB}
    (hpost : Server.do_POST sample_server sample_client Store.DB.initial sample_message.path
      sample_message.body 0 (fun _ => .ok 1) = (some r, db)) (hack : acknowledges r = true) :
    ∃ s, Run (Step Sender.sample_sender
      (Sender.sample_config "sshd" Sender.valid_sshd) sample_server sample_client)
      State.initial sample_labels s := by
  have hmessage : row_message Sender.sample_sender sample_row = .ok sample_message := by
    decide +kernel
  have hfirst := @Step.process Sender.sample_sender
    (Sender.sample_config "sshd" Sender.valid_sshd) sample_server sample_client sample_sent
    sample_message 0 (fun _ => .ok 1) (some r) db List.mem_cons_self hpost
  rcases hagain : Server.do_POST sample_server sample_client db sample_message.path
    sample_message.body 1 (fun _ => .ok 1) with ⟨response, receiver⟩
  have hsecond := @Step.process Sender.sample_sender
    (Sender.sample_config "sshd" Sender.valid_sshd) sample_server sample_client
    { sample_sent with receiver := db, replies := [(sample_message, r)] }
    sample_message 1 (fun _ => .ok 1) response receiver List.mem_cons_self hagain
  refine ⟨_, run_sample_sent.append (Run.cons hfirst (Run.cons hsecond (Run.single
    (Step.acknowledged hmessage ?_ hack (Sender.Step.finish rfl)))))⟩
  exact List.mem_append_right _ List.mem_cons_self

/-- The ban is acknowledged and its claim is the receiver's. -/
theorem receiver_applies_log_twice : ∃ s, Run (Step Sender.sample_sender
    (Sender.sample_config "sshd" Sender.valid_sshd) sample_server sample_client)
    State.initial sample_labels s ∧
    Store.claim_set s.receiver "web1".toList = applyAll (fun _ => none)
      ((upto [sample_payload] (Store.last_seq s.receiver "web1".toList)).flatMap Payload.changes) := by
  have hany : (Server.do_POST sample_server sample_client Store.DB.initial sample_message.path
      sample_message.body 0 (fun _ => .ok 1)).1.any acknowledges = true := by decide +kernel
  rcases hpost : Server.do_POST sample_server sample_client Store.DB.initial sample_message.path
    sample_message.body 0 (fun _ => .ok 1) with ⟨response, db⟩
  rw [hpost] at hany
  obtain ⟨r, rfl, hack⟩ := (Option.any_eq_true _ _).mp hany
  obtain ⟨s, hrun⟩ := run_sample hpost hack
  exact ⟨s, hrun, (receiver_applies_log _ _ _ _ _ s hrun).2.1⟩

end F2bguard.Delivery
