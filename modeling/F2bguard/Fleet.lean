/-
Many senders and one firewall.

Every client has a sender of its own with its outbox, its worker and its part of the network;
the receiver and its store are shared. For one client the others are what the one-client system
allows them to be: calls under another id, and prunings. So what is proved of one sender and the
receiver holds of each of them here (`view_run`), and together they say what is blocked. Whenever
an enforcement returns, the tables hold the claims that the payloads applied so far leave to their
clients, and once a client's outbox is empty these are the claims it has active
(`fleet_blocks`).
-/
import F2bguard.Delivery
import F2bguard.ActiveClaims
import F2bguard.Handler

set_option autoImplicit false

namespace F2bguard.Fleet

open F2bguard.PyText F2bguard.PyJson F2bguard.Ipaddress F2bguard.Tables F2bguard.Lifecycle
open F2bguard.Networks F2bguard.Whitelist F2bguard.PfHelper F2bguard.HelperClient F2bguard.Runs
open F2bguard.Enforcer (Surroundings enforce reload replace_desired kept_families kept
  requestable_kept exclude_texts effective_kept mem_kept)
open F2bguard.Sender (Payload SenderConfig CommandStep World upto folded pending)

/-! ## The system

A step is a step of one client's system, taken in the view that puts the shared receiver beside
the client's own sender and network. What the receiver does for the others is left out of the
client's own steps here: it happens as their steps. The snapshot command passes on the number it
has read, as in the system of the commands; the other labels are free. -/

/-- The receiver's settings and its clients, each with the settings of its sender. The ids are
distinct, which `parse_config` checks. -/
structure Setup (ι : Type) where
  server : Server.Env
  client : ι → Server.ClientConfig
  env : ι → Sender.Env
  config : ι → SenderConfig
  distinct : ∀ i j, (client i).id = (client j).id → i = j

/-- A sender and its part of the network: every message it ever sent, the replies that are under
way, and the UUIDs drawn so far. -/
structure Member where
  sender : Sender.State
  sent : List Sender.Message
  replies : List (Sender.Message × Server.Response)
  drawn : List Text

structure State (ι : Type) where
  members : ι → Member
  receiver : Store.DB

/-- Empty outboxes everywhere and an empty store. -/
def State.initial {ι : Type} : State ι :=
  ⟨fun _ => ⟨Sender.State.initial, [], [], []⟩, Store.DB.initial⟩

section Steps

variable {ι : Type} [DecidableEq ι]

/-- One client and the receiver. -/
def State.view (s : State ι) (i : ι) : Delivery.State :=
  ⟨(s.members i).sender, s.receiver, (s.members i).sent, (s.members i).replies, (s.members i).drawn⟩

/-- The client's commands and its worker. -/
def State.world (s : State ι) (i : ι) : World := ⟨(s.members i).sender, (s.members i).drawn⟩

/-- The client and the receiver as they are after a step of the client; the others stay as they
were. -/
def State.put (s : State ι) (i : ι) (v : Delivery.State) : State ι :=
  ⟨Function.update s.members i ⟨v.sender, v.sent, v.replies, v.drawn⟩, v.receiver⟩

/-- What another client does is a step of that client here. -/
def Own : Delivery.Label → Prop
  | .other _ => False
  | _ => True

/-- The snapshot command passes the number it has read. -/
def Commanded (config : SenderConfig) (db : Sender.DB) (a : Delivery.Label) : Prop :=
  ∀ b, a.of_sender = some b → b.Commanded config db

inductive Step (setup : Setup ι) : State ι → ι × Delivery.Label → State ι → Prop
  | move {s : State ι} {i : ι} {a : Delivery.Label} {v : Delivery.State} (hown : Own a)
      (hcommanded : Commanded (setup.config i) (s.members i).sender.db a)
      (h : Delivery.Step (setup.env i) (setup.config i) setup.server (setup.client i) (s.view i) a v) :
      Step setup s (i, a) (s.put i v)

/-- What a step is for the sender of a client. -/
def seen (i : ι) (l : ι × Delivery.Label) : List Sender.Label :=
  if l.1 = i then l.2.of_sender.toList else []

/-- The payloads a client has issued. -/
def issued (i : ι) (labels : List (ι × Delivery.Label)) : List Payload :=
  Sender.issued (labels.flatMap (seen i))

theorem members_put_self (s : State ι) (i : ι) (v : Delivery.State) :
    (s.put i v).members i = ⟨v.sender, v.sent, v.replies, v.drawn⟩ := Function.update_self _ _ _

theorem members_put_other (s : State ι) {i j : ι} (h : j ≠ i) (v : Delivery.State) :
    (s.put i v).members j = s.members j := Function.update_of_ne h _ _

theorem view_put_self (s : State ι) (i : ι) (v : Delivery.State) : (s.put i v).view i = v := by
  rw [State.view, members_put_self]
  rfl

theorem view_put_other (s : State ι) {i j : ι} (h : j ≠ i) (v : Delivery.State) :
    (s.put i v).view j = { s.view j with receiver := v.receiver } := by
  rw [State.view, members_put_other s h]
  rfl

theorem put_view (s : State ι) (i : ι) : s.put i (s.view i) = s := by
  have hmembers : Function.update s.members i (s.members i) = s.members := Function.update_eq_self i _
  exact congrArg (State.mk · s.receiver) hmembers

/-! ## What the others do to the receiver

To be an allowed call in another client's system, a change of the receiver must be a validated
call under the id of the client it was made for. It is, since `do_POST` takes the id from the
certificate and not from the body. -/

/-- A copy of a message is refused and changes nothing, or it is a validated call for the
client's own rows. -/
theorem receiver_cases {server : Server.Env} {client : Server.ClientConfig} {db : Store.DB}
    {path : Claims.Path} {text : Text} {now : ℚ} {enforced : Store.DB → Except Text ℕ} :
    (Server.do_POST server client db path text now enforced).2 = db ∨
      ∃ request, request.Validated ∧ (Server.do_POST server client db path text now enforced).2 =
        ((Server.request_call server client request now).perform server.store db).2 := by
  unfold Server.do_POST
  cases hbody : Server._body server text with
  | error response => exact Or.inl rfl
  | ok raw =>
    dsimp only
    unfold Server.store_write
    cases hread : Server.read_request server client path raw with
    | error e => exact Or.inl rfl
    | ok request =>
      refine Or.inr ⟨request, (Handler.read_request_ok hread).1, ?_⟩
      dsimp only
      rcases (Server.request_call server client request now).perform server.store db with ⟨result, db'⟩
      cases result with
      | error e => rfl
      | ok r => rfl

/-- The receiver changes by a validated call under the client's id, by a pruning, or not at all. -/
theorem receiver_step {env : Sender.Env} {config : SenderConfig} {server : Server.Env}
    {client : Server.ClientConfig} {v v' : Delivery.State} {a : Delivery.Label} (hown : Own a)
    (h : Delivery.Step env config server client v a v') :
    v'.receiver = v.receiver ∨
      (∃ now, v'.receiver = (Store.prune_history server.store v.receiver now).2) ∨
      ∃ request now, Store.Request.Validated request ∧ v'.receiver =
        ((Server.request_call server client request now).perform server.store v.receiver).2 := by
  cases h with
  | work hlocal hfresh h => exact Or.inl rfl
  | attempt h => exact Or.inl rfl
  | acknowledged hmessage hreply hack h => exact Or.inl rfl
  | @process message now enforced response receiver hsent h =>
    have hreceiver := congrArg Prod.snd h
    rcases @receiver_cases server client v.receiver message.path message.body now enforced with
      hsame | ⟨request, hvalid, hperform⟩
    · exact Or.inl (hreceiver.symm.trans hsame)
    · exact Or.inr (Or.inr ⟨request, now, hvalid, hreceiver.symm.trans hperform⟩)
  | prune_history now => exact Or.inr (Or.inl ⟨now, rfl⟩)
  | other h => exact absurd hown id

/-! ## One client among the others

The step of client `i` is a step of the view of `i`. In the view of any other client it is a call
under another id, a pruning, or nothing, and so a step there as well. All that was proved of one
client thus holds of each, by `view_run` and without a new induction. -/

variable {setup : Setup ι}

/-- A step of the fleet is, for each client, a run of the one-client system. -/
theorem view_step (j : ι) {s s' : State ι} {l : ι × Delivery.Label} (h : Step setup s l s') :
    ∃ bs, Run (Delivery.Step (setup.env j) (setup.config j) setup.server (setup.client j)) (s.view j)
        bs (s'.view j) ∧
      bs.flatMap (fun b => b.of_sender.toList) = seen j l := by
  cases h with
  | @move i a v hown hcommanded h =>
    by_cases hij : i = j
    · subst hij
      refine ⟨[a], ?_, ?_⟩
      · rw [view_put_self]
        exact Run.single h
      · rw [List.flatMap_singleton, seen, if_pos rfl]
    · -- the step is another client's: a call under another id, a pruning, or nothing
      rw [view_put_other s (fun h => hij h.symm), seen, if_neg hij]
      rcases receiver_step hown h with hsame | ⟨now, hprune⟩ | ⟨request, now, -, hperform⟩
      · rw [hsame]
        exact ⟨[], Run.nil, rfl⟩
      · rw [hprune]
        exact ⟨[.prune_history now], Run.single (Delivery.Step.prune_history (s.view j) now), rfl⟩
      · rw [hperform]
        have hother : (setup.client i).id ≠ (setup.client j).id := fun h => hij (setup.distinct i j h)
        exact ⟨[.other (Server.request_call setup.server (setup.client i) request now)],
          Run.single (Delivery.Step.other hother), rfl⟩

/-- And for each client's commands and worker it is a step of theirs or none. -/
theorem world_step (j : ι) {s s' : State ι} {l : ι × Delivery.Label} (h : Step setup s l s') :
    ∃ bs, Run (CommandStep (setup.env j) (setup.config j)) (s.world j) bs (s'.world j) ∧
      bs.flatMap (fun b => [b]) = seen j l := by
  cases h with
  | @move i a v hown hcommanded h =>
    by_cases hij : i = j
    · subst hij
      have hworld : (s.put i v).world i = ⟨v.sender, v.drawn⟩ := by
        rw [State.world, members_put_self]
      rw [hworld, seen, if_pos rfl]
      cases h with
      | work hlocal hfresh h =>
        exact ⟨[_], Run.single (CommandStep.step h (hcommanded _ rfl) hfresh), rfl⟩
      | attempt h =>
        exact ⟨[_], Run.single (CommandStep.step h (hcommanded _ rfl) (fun u hu => (by cases hu))), rfl⟩
      | acknowledged hmessage hreply hack h =>
        exact ⟨[_], Run.single (CommandStep.step h (hcommanded _ rfl) (fun u hu => (by cases hu))), rfl⟩
      | process hsent h => exact ⟨[], Run.nil, rfl⟩
      | prune_history now => exact ⟨[], Run.nil, rfl⟩
      | other h => exact absurd hown id
    · have hworld : (s.put i v).world j = s.world j := by
        rw [State.world, members_put_other s (fun h => hij h.symm)]
        rfl
      rw [hworld, seen, if_neg hij]
      exact ⟨[], Run.nil, rfl⟩

theorem view_run (j : ι) {labels : List (ι × Delivery.Label)} {s : State ι}
    (h : Run (Step setup) State.initial labels s) :
    ∃ done, Delivery.Coherent (setup.env j) setup.server (setup.client j) (issued j labels) done
      (s.view j) := by
  have hstep : ∀ s₁ a s₂, Step setup s₁ a s₂ → ∃ bs,
      Run (Delivery.Step (setup.env j) (setup.config j) setup.server (setup.client j)) (s₁.view j) bs
        (s₂.view j) ∧
      bs.flatMap (fun b => b.of_sender.toList) = seen j a := fun _ _ _ h => view_step j h
  obtain ⟨bs, hrun, hbs⟩ := Run.simulate hstep h
  have hissued : Delivery.issued bs = issued j labels := by
    rw [Delivery.issued, issued, ← hbs, List.filterMap_eq_flatMap_toList]
  rw [← hissued]
  exact ⟨Delivery.delivered bs, Delivery.coherent_run hrun⟩

theorem world_run (j : ι) {labels : List (ι × Delivery.Label)} {s : State ι}
    (h : Run (Step setup) State.initial labels s) :
    ∃ done, Sender.Tracked (setup.env j) (issued j labels) done (s.world j) := by
  have hstep : ∀ s₁ a s₂, Step setup s₁ a s₂ → ∃ bs,
      Run (CommandStep (setup.env j) (setup.config j)) (s₁.world j) bs (s₂.world j) ∧
      bs.flatMap (fun b => [b]) = seen j a := fun _ _ _ h => world_step j h
  obtain ⟨bs, hrun, hbs⟩ := Run.simulate hstep h
  rw [List.flatMap_singleton'] at hbs
  rw [issued, ← hbs]
  exact ⟨_, Sender.tracked_run hrun⟩

/-! ## What the receiver holds

The claims of a client in the store are the fold over the payloads applied so far
(`receiver_applies_log` for its view). A sender only ever claims for ever, so an address is
desired at every time when it is desired at one, and no clock reading enters the result. -/

/-- The claims that are left of the payloads a client's receiver has applied. -/
def applied (setup : Setup ι) (labels : List (ι × Delivery.Label)) (s : State ι) (i : ι) :
    Store.ClaimKey → Option Store.ClaimValue :=
  folded (upto (issued i labels) (Store.last_seq s.receiver (setup.client i).id))

/-- A client has claimed an address and not released it, as far as its payloads were applied. -/
def Claimed (setup : Setup ι) (labels : List (ι × Delivery.Label)) (s : State ι) (i : ι)
    (a : IPAddress) : Prop :=
  ∃ k, applied setup labels s i k = some ⟨a.str, 1, none⟩

/-- Senders claim for ever. -/
theorem folded_value {log : List Payload} {k : Store.ClaimKey} {v : Store.ClaimValue}
    (h : folded log k = some v) : v.permanent = 1 ∧ v.expires_at = none := by
  rcases applyAll_eq_some h with hnone | ⟨c, hc, hgives⟩
  · cases hnone
  obtain ⟨p, -, hp⟩ := List.mem_flatMap.mp hc
  cases p with
  | event p =>
    rw [List.mem_singleton.mp (show c ∈ [Store.Event.change p.event] from hp), Store.Event.change] at hgives
    cases hop : p.event.op with
    | ban =>
      rw [hop] at hgives
      obtain ⟨-, rfl⟩ : _ ∧ v = ⟨p.ip, 1, none⟩ := hgives
      exact ⟨rfl, rfl⟩
    | unban =>
      rw [hop] at hgives
      exact absurd hgives id
  | snapshot p =>
    rw [List.mem_singleton.mp (show c ∈ [Change.replace _] from hp)] at hgives
    obtain ⟨claim, hclaim, hentry⟩ := List.mem_map.mp hgives
    obtain ⟨c, -, rfl⟩ := List.mem_map.mp hclaim
    obtain ⟨-, rfl⟩ := Prod.mk.inj hentry
    exact ⟨rfl, rfl⟩

/-- The store was only written through the validators, and every row is a client's. -/
structure Kept (setup : Setup ι) (s : State ι) : Prop where
  served : Store.Served setup.server.store s.receiver
  owned : ∀ id, (∀ i, (setup.client i).id ≠ id) → ∀ k, Store.claim_set s.receiver id k = none

omit [DecidableEq ι] in
theorem Kept.perform {s : State ι} (h : Kept setup s) {s' : State ι} {action : Store.Action}
    (hvalid : action.Validated)
    (hclient : ∀ id, (∀ i, (setup.client i).id ≠ id) →
      Store.fresh_request setup.server.store s.receiver id action = none)
    (hreceiver : s'.receiver = action.perform setup.server.store s.receiver) : Kept setup s' where
  served := by
    rw [hreceiver]
    exact h.served.perform hvalid
  owned id hid k := by
    rw [hreceiver, Store.claim_set_perform, hclient id hid]
    exact h.owned id hid k

theorem kept_step {s s' : State ι} {l : ι × Delivery.Label} (h : Kept setup s)
    (hstep : Step setup s l s') : Kept setup s' := by
  cases hstep with
  | @move i a v hown hcommanded hlocal =>
    rcases receiver_step hown hlocal with hsame | ⟨now, hprune⟩ | ⟨request, now, hvalid, hperform⟩
    · have hreceiver : (s.put i v).receiver = s.receiver := hsame
      exact ⟨hreceiver ▸ h.served, hreceiver ▸ h.owned⟩
    · exact @Kept.perform _ _ _ h _ (.prune now) trivial (fun _ _ => rfl) hprune
    · refine @Kept.perform _ _ _ h _ (.call (Server.request_call setup.server (setup.client i) request now))
        hvalid (fun id hid => ?_) hperform
      exact if_neg (fun hsame => hid i hsame.1)

theorem kept_run {labels : List (ι × Delivery.Label)} {s : State ι}
    (h : Run (Step setup) State.initial labels s) : Kept setup s := by
  refine Run.invariant (P := fun _ s => Kept setup s)
    ⟨Store.Served.initial _, fun _ _ _ => rfl⟩ ?_ h
  intro labels s₁ a s₂ _ hkept hstep
  exact kept_step hkept hstep

/-- An address is desired when a client has claimed it. -/
theorem desired_iff {labels : List (ι × Delivery.Label)} {s : State ι}
    (h : Run (Step setup) State.initial labels s) (boundary : ℚ) (a : IPAddress) :
    Store.Desired s.receiver boundary a ↔ ∃ i, Claimed setup labels s i a := by
  have hclaims : ∀ i, Store.claim_set s.receiver (setup.client i).id = applied setup labels s i := by
    intro i
    obtain ⟨_, hcoherent⟩ := view_run i h
    exact hcoherent.in_step.claims
  constructor
  · rintro ⟨r, hr, hpermanent, -, hip⟩
    have hrow : Store.claim_set s.receiver r.client_id (r.jail, r.ban_id) = some r.value :=
      Store.claim_set_eq_some.mpr ⟨r, hr, rfl, rfl⟩
    by_cases howner : ∃ i, (setup.client i).id = r.client_id
    · obtain ⟨i, hi⟩ := howner
      rw [← hi, hclaims] at hrow
      have hvalue : r.value = ⟨a.str, 1, none⟩ := by
        have hexpires : r.expires_at = none := (folded_value hrow).2
        rw [Store.ClaimRow.value, hip, hpermanent, hexpires]
      rw [hvalue] at hrow
      exact ⟨i, _, hrow⟩
    · rw [(kept_run h).owned _ (not_exists.mp howner)] at hrow
      cases hrow
  · rintro ⟨i, k, hk⟩
    rw [← hclaims] at hk
    obtain ⟨r, hr, -, hvalue⟩ := Store.claim_set_eq_some.mp hk
    obtain ⟨hip, hpermanent, hexpires⟩ := Store.ClaimValue.mk.inj hvalue
    refine ⟨r, hr, hpermanent, fun t ht => ?_, hip⟩
    rw [hexpires] at ht
    cases ht

/-- When nothing waits in a client's outbox, all its payloads were applied, and what is left of
them are the claims it has active. -/
theorem claimed_of_drained {labels : List (ι × Delivery.Label)} {s : State ι}
    (h : Run (Step setup) State.initial labels s) {i : ι}
    (hdrained : pending (s.members i).sender.db = []) (a : IPAddress) :
    Claimed setup labels s i a ↔
      ∃ r ∈ (s.members i).sender.db.claims.rows, r.active = true ∧ r.ip = a.str := by
  obtain ⟨done, hcoherent⟩ := view_run i h
  obtain ⟨_, htracked⟩ := world_run i h
  have hall : upto (issued i labels) (Store.last_seq s.receiver (setup.client i).id) =
      issued i labels := by
    rw [Sender.upto, List.filter_eq_self]
    intro p hp
    rw [decide_eq_true_eq]
    rcases hcoherent.sound.kept p hp with hmarked | ⟨r, hr, -⟩
    · exact hcoherent.marked _ hmarked
    · change r ∈ pending (s.members i).sender.db at hr
      rw [hdrained] at hr
      cases hr
  constructor
  · rintro ⟨k, hk⟩
    rw [applied, hall] at hk
    obtain ⟨r, hr, hactive, -, hvalue⟩ := (htracked.mirrors k _).mp hk
    exact ⟨r, hr, hactive, (Store.ClaimValue.mk.inj hvalue).1.symm⟩
  · rintro ⟨r, hr, hactive, hip⟩
    refine ⟨r.ban_key, ?_⟩
    rw [applied, hall]
    exact (htracked.mirrors _ _).mpr ⟨r, hr, hactive, rfl, by rw [hip]⟩

end Steps

/-! ## What is blocked

The enforcement that returns has put the desired texts into the tables or kept what was there
because nothing was to be changed. Both come out as the same set of addresses, those that are
desired and not whitelisted. -/

/-- What an enforcement that returns has set. -/
theorem enforce_tables {env : HelperClient.Env} {store : Store.Env} {sur : Surroundings} {w w' : Enforcer.World}
    {count : ℕ} {data : Text} {networks : List IPNetwork} (hserved : Store.Served store w.db)
    (hserver : sur.server_file = .ok data) (hhelper : sur.helper_file = .ok data)
    (hvalid : parse_whitelist data = .ok networks) (h : enforce env sur w = (.ok count, w'))
    (version : Version) (a : IPAddress) :
    InTable (w'.pf.tables version) a ↔ a.version = version ∧
      Store.Desired w.db sur.clock.selected a ∧ ¬ Covered networks a := by
  obtain ⟨v4, v6, heffective, h4, h6, hcount⟩ := Store.effective_ips_spec hserved sur.clock.selected
  have hrequestable := requestable_kept networks h4 h6 hcount
  have hread : read_whitelist sur.helper_file = .ok networks := by
    rw [hhelper]
    exact (readers_agree data networks).mp hvalid
  have hreload : reload sur.server_file = .ok networks := by
    rw [hserver, reload]
    dsimp only [Except.bind]
    rw [hvalid]
    rfl
  unfold enforce replace_desired at h
  rw [heffective, hreload] at h
  dsimp only at h
  rw [exclude_texts, exclude_texts] at h
  dsimp only at h
  rcases hreplace : HelperClient.replace env sur.outcomes sur.helper_file sur.exchanges
    ((kept networks v4).map IPAddress.str) ((kept networks v6).map IPAddress.str) w.pf
    with ⟨result, pf'⟩
  rw [hreplace] at h
  have hpf : ∃ response, result = .ok response ∧ w'.pf = pf' := by
    cases result with
    | error e =>
      dsimp only [Except.map] at h
      split at h
      · cases h
      split at h
      · cases h
      split at h <;> cases h
    | ok response =>
      dsimp only [Except.map] at h
      split at h
      · cases h
      split at h
      · cases h
      split at h
      · cases h
      cases h
      exact ⟨response, rfl, rfl⟩
  obtain ⟨response, rfl, hpf⟩ := hpf
  have hreplaced : Replaced env sur.outcomes sur.helper_file (kept_families networks v4 v6) response pf' :=
    replace_returns hrequestable hreplace
  obtain ⟨networks', hread', -, hset⟩ := hreplaced.networks
  rw [hread] at hread'
  cases hread'
  rw [hpf, hset version, Families.get_map, Families.get_map, inTable_addresses]
  cases version with
  | four =>
    change a ∈ effective (NetworkIndex.of_networks networks) (kept networks v4) ↔ _
    rw [effective_kept, mem_kept, h4.mem_iff, and_assoc]
  | six =>
    change a ∈ effective (NetworkIndex.of_networks networks) (kept networks v6) ↔ _
    rw [effective_kept, mem_kept, h6.mem_iff, and_assoc]

/-- **A firewall blocks what its clients claim.** In every state of every run, when an enforcement
returns that nothing disturbs: an address is blocked exactly when it is not whitelisted and some
client has claimed it, as far as the client's payloads were applied, each once and in the order of
their numbers. For a client with nothing left in its outbox these are all its payloads, and the
claims left of them are those it has active. -/
theorem fleet_blocks {ι : Type} [DecidableEq ι] (setup : Setup ι) (env : HelperClient.Env)
    (labels : List (ι × Delivery.Label)) (s : State ι) (h : Run (Step setup) State.initial labels s)
    (sur : Surroundings) (pf : PF) (last_index : Option NetworkIndex) (count : ℕ) (w' : Enforcer.World)
    (data : Text) (networks : List IPNetwork) (hserver : sur.server_file = .ok data)
    (hhelper : sur.helper_file = .ok data) (hvalid : parse_whitelist data = .ok networks)
    (henforce : enforce env sur ⟨s.receiver, pf, last_index⟩ = (.ok count, w')) :
    (∀ version a, InTable (w'.pf.tables version) a ↔
      a.version = version ∧ (∃ i, Claimed setup labels s i a) ∧ ¬ Covered networks a) ∧
    ∀ i, pending (s.members i).sender.db = [] → ∀ a, Claimed setup labels s i a ↔
      ∃ r ∈ (s.members i).sender.db.claims.rows, r.active = true ∧ r.ip = a.str := by
  refine ⟨fun version a => ?_, fun i hdrained a => claimed_of_drained h hdrained a⟩
  rw [enforce_tables (kept_run h).served hserver hhelper hvalid henforce version a,
    desired_iff h]

/-! ## A fleet of one

One ban, from the hook to the tables: the payload is committed, the receiver applies it and
answers, the outbox empties, and the helper sets the address. -/

/-- What one client does alone is a run of a fleet. -/
theorem lift_run {ι : Type} [DecidableEq ι] {setup : Setup ι} {i : ι} {v v' : Delivery.State}
    {bs : List Delivery.Label}
    (h : Run (Delivery.Step (setup.env i) (setup.config i) setup.server (setup.client i)) v bs v')
    (hown : ∀ b ∈ bs, Own b) (hcommanded : ∀ b ∈ bs, ∀ db, Commanded (setup.config i) db b)
    {s : State ι} (hs : s.view i = v) :
    ∃ s', Run (Step setup) s (bs.map (fun b => (i, b))) s' ∧ s'.view i = v' := by
  induction h with
  | nil => exact ⟨s, Run.nil, hs⟩
  | @snoc bs v₁ v₂ b _ hlast ih =>
    obtain ⟨s₁, hrun, rfl⟩ := ih (fun c hc => hown c (List.mem_append_left _ hc))
      (fun c hc => hcommanded c (List.mem_append_left _ hc))
    have hb : b ∈ bs ++ [b] := List.mem_append_right _ (List.mem_singleton_self b)
    rw [List.map_append]
    exact ⟨_, hrun.snoc (Step.move (hown b hb) (hcommanded b hb _) hlast), view_put_self _ _ _⟩

def sample_setup : Setup Unit where
  server := Delivery.sample_server
  client _ := Delivery.sample_client
  env _ := Sender.sample_sender
  config _ := Sender.sample_config "sshd" Sender.valid_sshd
  distinct _ _ _ := rfl

/-- The store after the ban. -/
def sample_store : Store.DB :=
  (Server.do_POST Delivery.sample_server Delivery.sample_client Store.DB.initial
    Delivery.sample_message.path Delivery.sample_message.body 0 (fun _ => .ok 1)).2

def sample_labels : List Delivery.Label :=
  Delivery.sample_labels.take 2 ++
    [.process Delivery.sample_message 0, .sender (.finish Delivery.sample_row 2 true)]

theorem sample_run : ∃ s : State Unit, Run (Step sample_setup) State.initial
    (sample_labels.map (fun b => ((), b))) s ∧ s.receiver = sample_store ∧
      pending (s.members ()).sender.db = [] := by
  have hmessage : Delivery.row_message Sender.sample_sender Delivery.sample_row =
      .ok Delivery.sample_message := by decide +kernel
  have hany : (Server.do_POST Delivery.sample_server Delivery.sample_client Store.DB.initial
      Delivery.sample_message.path Delivery.sample_message.body 0 (fun _ => .ok 1)).1.any
        Delivery.acknowledges = true := by decide +kernel
  obtain ⟨r, hr, hack⟩ := (Option.any_eq_true _ _).mp hany
  have hpost : Server.do_POST Delivery.sample_server Delivery.sample_client Store.DB.initial
      Delivery.sample_message.path Delivery.sample_message.body 0 (fun _ => .ok 1) =
        (some r, sample_store) := by
    rw [sample_store, ← hr]
  have hprocess := @Delivery.Step.process Sender.sample_sender
    (Sender.sample_config "sshd" Sender.valid_sshd) Delivery.sample_server Delivery.sample_client
    Delivery.sample_sent Delivery.sample_message 0 (fun _ => .ok 1) (some r) sample_store
    List.mem_cons_self hpost
  have hfinish := @Delivery.Step.acknowledged Sender.sample_sender
    (Sender.sample_config "sshd" Sender.valid_sshd) Delivery.sample_server Delivery.sample_client
    { Delivery.sample_sent with receiver := sample_store, replies := [(Delivery.sample_message, r)] }
    Delivery.sample_row 2 Delivery.sample_message r _ hmessage List.mem_cons_self hack
    (Sender.Step.finish rfl)
  have hrun : Run (Delivery.Step Sender.sample_sender
      (Sender.sample_config "sshd" Sender.valid_sshd) Delivery.sample_server Delivery.sample_client)
      Delivery.State.initial sample_labels _ :=
    Delivery.run_sample_sent.append (Run.cons hprocess (Run.single hfinish))
  have hown : ∀ b ∈ sample_labels, Own b := by
    intro b hb
    simp only [sample_labels, Delivery.sample_labels, List.take, List.cons_append, List.nil_append,
      List.mem_cons, List.not_mem_nil, or_false] at hb
    rcases hb with rfl | rfl | rfl | rfl <;> exact trivial
  have hcommanded : ∀ b ∈ sample_labels, ∀ db,
      Commanded (Sender.sample_config "sshd" Sender.valid_sshd) db b := by
    intro b hb db c hc
    simp only [sample_labels, Delivery.sample_labels, List.take, List.cons_append, List.nil_append,
      List.mem_cons, List.not_mem_nil, or_false] at hb
    rcases hb with rfl | rfl | rfl | rfl <;> cases hc <;> exact trivial
  obtain ⟨s, hlift, hview⟩ := @lift_run Unit _ sample_setup () _ _ _ hrun hown hcommanded State.initial rfl
  have hreceiver : (s.view ()).receiver = sample_store := by rw [hview]
  have hsender : (s.view ()).sender = ⟨Sender.finish_attempt Sender.sample_sender Sender.sample_banned.db
      Delivery.sample_row 2 true, [], none⟩ := by rw [hview]; rfl
  have hdrained : pending (s.view ()).sender.db = [] := by
    rw [hsender]
    decide +kernel
  exact ⟨s, hlift, hreceiver, hdrained⟩

theorem fleet_blocks_one : ∃ (s : State Unit) (w' : Enforcer.World),
    pending (s.members ()).sender.db = [] ∧
    (InTable (w'.pf.tables .four) (.v4 3405803783) ↔
      (∃ r ∈ (s.members ()).sender.db.claims.rows, r.active = true ∧ r.ip = "203.0.113.7".toList) ∧
        ¬ Covered Enforcer.sample_networks (.v4 3405803783)) := by
  obtain ⟨s, hrun, hreceiver, hdrained⟩ := sample_run
  have hvalid : parse_whitelist "# trusted\n192.0.2.0/30\n".toList = .ok Enforcer.sample_networks := by
    decide +kernel
  have henforce : (enforce Enforcer.sample_env Enforcer.sample_surroundings
      ⟨sample_store, ⟨fun _ => [], []⟩, none⟩).1 = .ok 1 := by
    decide +kernel
  have hpair := Prod.mk.eta (p := enforce Enforcer.sample_env Enforcer.sample_surroundings
      ⟨sample_store, ⟨fun _ => [], []⟩, none⟩)
  rw [henforce, ← hreceiver] at hpair
  obtain ⟨hblocks, hclaimed⟩ := fleet_blocks sample_setup Enforcer.sample_env _ s hrun
    Enforcer.sample_surroundings ⟨fun _ => [], []⟩ none 1 _ _ Enforcer.sample_networks rfl rfl hvalid
    hpair.symm
  refine ⟨s, _, hdrained, (hblocks .four (.v4 3405803783)).trans ?_⟩
  rw [Unique.exists_iff, hclaimed () hdrained]
  exact and_iff_right rfl

end F2bguard.Fleet
