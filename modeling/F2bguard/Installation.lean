/-
The hosts and the firewall together.

Each host has its Fail2Ban, its hooks and snapshot commands (`Reconciliation`) and the sender that
they share with the worker, which is a member of the fleet (`Fleet`). A run of all of them is a run
of each host and a run of the fleet, so what is proved of the two meets at the senders: Fail2Ban's
permanent bans are the active claims, the active claims are what the receiver has, and what the
receiver has is blocked (`firewall_blocks_bans`).

The statement about a packet needs all of it: that a hook or a snapshot brings a ban into the
outbox, that the outbox reaches the receiver in order and once, and that an enforcement puts what
the receiver has into the tables. Each part is proved in its own module under its own labels, and
this module only fits the labels together.
-/
import F2bguard.Fleet
import F2bguard.Reconciliation

set_option autoImplicit false

namespace F2bguard.Installation

open F2bguard.PyText F2bguard.PyJson F2bguard.Ipaddress F2bguard.Networks F2bguard.Whitelist
open F2bguard.PfHelper F2bguard.HelperClient F2bguard.Runs
open F2bguard.Sender (SenderConfig Hook Phase pending is_active EnumeratedClaim)
open F2bguard.Fleet (Setup Member)
open F2bguard.Enforcer (Surroundings enforce)

/-! ## The system

A step on a host that does not concern its sender leaves the fleet as it is. A step of the sender
is a step in both systems at once and leaves the same sender in both. What a client's network and
the receiver do is no step of a host. -/

/-- A host but for its sender. -/
structure Host (τ : Type) where
  bans : Text × Text → Option ℤ
  hooks : List Hook
  phases : τ → Phase

structure State (ι τ : Type) where
  hosts : ι → Host τ
  fleet : Fleet.State ι

inductive Label (ι τ : Type)
  | host (i : ι) (a : Reconciliation.Label τ)
  | net (i : ι) (a : Delivery.Label)

/-- Any bans on the hosts, nothing waiting anywhere, and an empty store. -/
def State.initial {ι τ : Type} (bans : ι → Text × Text → Option ℤ) : State ι τ :=
  ⟨fun i => ⟨bans i, [], fun _ => .ended (.ok ())⟩, Fleet.State.initial⟩

section Steps

variable {ι τ : Type} [DecidableEq ι] [DecidableEq τ]

/-- A host with its sender. -/
def State.host (s : State ι τ) (i : ι) : Reconciliation.State τ :=
  ⟨(s.hosts i).bans, (s.hosts i).hooks, (s.hosts i).phases, (s.fleet.members i).sender⟩

def State.put (s : State ι τ) (i : ι) (h : Reconciliation.State τ) (v : Delivery.State) : State ι τ :=
  ⟨Function.update s.hosts i ⟨h.bans, h.hooks, h.phases⟩, s.fleet.put i v⟩

inductive Step (setup : Setup ι) (s : State ι τ) : Label ι τ → State ι τ → Prop
  /-- Nothing happens to the sender. -/
  | host {i : ι} {a : Reconciliation.Label τ} {h : Reconciliation.State τ}
      (hstep : Reconciliation.Step (setup.env i) (setup.config i) (s.host i) a h)
      (hnone : a.of_sender = none) :
      Step setup s (.host i a) (s.put i h (s.fleet.view i))
  /-- The command hands over what it has enumerated. -/
  | call {i : ι} {t : τ} {claims : List EnumeratedClaim} {observed : ℕ} {h : Reconciliation.State τ}
      (hstep : Reconciliation.Step (setup.env i) (setup.config i) (s.host i) (.call t claims observed) h) :
      Step setup s (.host i (.call t claims observed))
        (s.put i h { s.fleet.view i with sender := h.sender })
  | sender {i : ι} {a : Reconciliation.Label τ} {b : Sender.Label} {h : Reconciliation.State τ}
      {v : Delivery.State}
      (hstep : Reconciliation.Step (setup.env i) (setup.config i) (s.host i) a h)
      (hlabel : a.of_sender = some b)
      (hdelivery : Delivery.Step (setup.env i) (setup.config i) setup.server (setup.client i)
        (s.fleet.view i) (.sender b) v)
      (hsender : v.sender = h.sender) :
      Step setup s (.host i a) (s.put i h v)
  /-- The network, and the receiver. -/
  | net {i : ι} {a : Delivery.Label} {v : Delivery.State} (hown : Fleet.Own a) (hnone : a.of_sender = none)
      (hdelivery : Delivery.Step (setup.env i) (setup.config i) setup.server (setup.client i)
        (s.fleet.view i) a v) :
      Step setup s (.net i a) (s.put i (s.host i) v)

/-- What happens on a host. -/
def on_host (i : ι) : Label ι τ → List (Reconciliation.Label τ)
  | .host j a => if j = i then [a] else []
  | .net _ _ => []

/-- What a step is for the fleet. -/
def in_fleet : Label ι τ → List (ι × Delivery.Label)
  | .host i a => a.of_sender.toList.map (fun b => (i, .sender b))
  | .net i a => [(i, a)]

omit [DecidableEq τ] in
theorem host_put_self (s : State ι τ) (i : ι) {h : Reconciliation.State τ} {v : Delivery.State}
    (hsender : v.sender = h.sender) : (s.put i h v).host i = h := by
  have hhost : (s.put i h v).hosts i = ⟨h.bans, h.hooks, h.phases⟩ := Function.update_self _ _ _
  have hmember : ((s.put i h v).fleet.members i).sender = v.sender :=
    congrArg Member.sender (Fleet.members_put_self s.fleet i v)
  rw [State.host, hhost, hmember, hsender]

omit [DecidableEq τ] in
theorem host_put_other (s : State ι τ) {i j : ι} (hne : j ≠ i) (h : Reconciliation.State τ)
    (v : Delivery.State) : (s.put i h v).host j = s.host j := by
  have hhost : (s.put i h v).hosts j = s.hosts j := Function.update_of_ne hne _ _
  have hmember : (s.put i h v).fleet.members j = s.fleet.members j :=
    Fleet.members_put_other s.fleet hne v
  rw [State.host, hhost, hmember]
  rfl

/-! ## A run of a host

The steps of the other hosts and of the network leave a host as it is, so the labels of one host,
in their order, are a run of it. -/

variable {setup : Setup ι} {s s' : State ι τ} {l : Label ι τ}

theorem host_view (j : ι) (h : Step setup s l s') :
    Run (Reconciliation.Step (setup.env j) (setup.config j)) (s.host j) (on_host j l) (s'.host j) := by
  have hput : ∀ {i : ι} {a : Reconciliation.Label τ} {h : Reconciliation.State τ} {v : Delivery.State},
      Reconciliation.Step (setup.env i) (setup.config i) (s.host i) a h → v.sender = h.sender →
      Run (Reconciliation.Step (setup.env j) (setup.config j)) (s.host j) (on_host j (.host i a))
        ((s.put i h v).host j) := by
    intro i a h v hstep hsender
    by_cases hij : i = j
    · subst hij
      rw [host_put_self s i hsender, on_host, if_pos rfl]
      exact Run.single hstep
    · rw [host_put_other s (fun h => hij h.symm), on_host, if_neg hij]
      exact Run.nil
  cases h with
  | @host i a h hstep hnone =>
    refine hput hstep ?_
    rcases Reconciliation.sender_part hstep with ⟨-, hsame⟩ | ⟨b, hb, -⟩
    · exact hsame.symm
    · rw [hb] at hnone
      cases hnone
  | call hstep => exact hput hstep rfl
  | sender hstep hlabel hdelivery hsender => exact hput hstep hsender
  | @net i a v hown hnone hdelivery =>
    have hsame : v.sender = (s.host i).sender := by
      cases hdelivery with
      | process hsent h => rfl
      | prune_history now => rfl
      | other h => exact absurd hown id
      | _ => cases hnone
    rw [on_host]
    by_cases hij : i = j
    · subst hij
      rw [host_put_self s i hsame]
      exact Run.nil
    · rw [host_put_other s (fun h => hij h.symm)]
      exact Run.nil

theorem host_run (j : ι) {bans : ι → Text × Text → Option ℤ} {labels : List (Label ι τ)}
    (h : Run (Step setup) (State.initial bans) labels s) :
    Run (Reconciliation.Step (setup.env j) (setup.config j)) (Reconciliation.State.initial (bans j))
      (labels.flatMap (on_host j)) (s.host j) := by
  have hstep : ∀ (s₁ : State ι τ) a s₂, Step setup s₁ a s₂ → ∃ bs,
      Run (Reconciliation.Step (setup.env j) (setup.config j)) (s₁.host j) bs (s₂.host j) ∧
      bs.flatMap (fun b => [b]) = on_host j a :=
    fun _ a _ h => ⟨on_host j a, host_view j h, List.flatMap_singleton' _⟩
  obtain ⟨bs, hrun, hbs⟩ := Run.simulate hstep h
  rw [List.flatMap_singleton'] at hbs
  rw [← hbs]
  exact hrun

/-! ## A run of the fleet

For the fleet the phases of a command do not exist. It has to be shown, though, that
a snapshot hands over what the jails answered, with a number that was read before, since the
fleet asks this of its members. -/

/-- What a command hands over is what Fail2Ban answered, with the number it has read. -/
theorem commanded {env : Sender.Env} {config : SenderConfig} {h h' : Reconciliation.State τ}
    {a : Reconciliation.Label τ} {b : Sender.Label} (hsound : Reconciliation.Sound env config h)
    (hstep : Reconciliation.Step env config h a h') (hlabel : a.of_sender = some b) :
    b.Commanded config h.sender.db := by
  cases hstep with
  | hook hhooks hfirst hrun =>
    cases hrun with
    | called hcheck hcall =>
      cases hlabel
      trivial
    | _ => cases hlabel
  | @call t left observed claims sender hphase hcall =>
    cases hlabel
    obtain ⟨hle, hasked⟩ := hsound.reads t observed [] claims (hphase ▸ .asking left observed [] claims)
    exact ⟨hasked.enumerated, observed, hle, rfl⟩
  | written hphase hclaims hexpected hcommit =>
    cases hlabel
    trivial
  | sender hother h =>
    cases hlabel
    cases b <;> trivial
  | _ => cases hlabel

theorem fleet_view (hsound : ∀ i, Reconciliation.Sound (setup.env i) (setup.config i) (s.host i))
    (h : Step setup s l s') : Run (Fleet.Step setup) s.fleet (in_fleet l) s'.fleet := by
  have hmove : ∀ {i : ι} {a : Reconciliation.Label τ} {b : Sender.Label} {h : Reconciliation.State τ}
      {v : Delivery.State}, Reconciliation.Step (setup.env i) (setup.config i) (s.host i) a h →
      a.of_sender = some b → Delivery.Step (setup.env i) (setup.config i) setup.server (setup.client i)
        (s.fleet.view i) (.sender b) v →
      Run (Fleet.Step setup) s.fleet (in_fleet (.host i a : Label ι τ)) (s.fleet.put i v) := by
    intro i a b h v hstep hlabel hdelivery
    rw [in_fleet, hlabel]
    refine Run.single (Fleet.Step.move trivial ?_ hdelivery)
    intro c hc
    cases hc
    exact commanded (hsound i) hstep hlabel
  cases h with
  | @host i a h hstep hnone =>
    have hsame : (s.put i h (s.fleet.view i)).fleet = s.fleet := Fleet.put_view s.fleet i
    rw [in_fleet, hnone, hsame]
    exact Run.nil
  | @call i t claims observed h hstep =>
    refine hmove hstep rfl ?_
    obtain ⟨hrunner, -⟩ := commanded (hsound i) hstep rfl
    cases hstep with
    | call hphase hcall =>
      exact Delivery.Step.work hrunner (fun u hu => absurd hu List.not_mem_nil) hcall
  | sender hstep hlabel hdelivery hsender => exact hmove hstep hlabel hdelivery
  | net hown hnone hdelivery =>
    refine Run.single (Fleet.Step.move hown ?_ hdelivery)
    intro b hb
    rw [hnone] at hb
    cases hb

theorem fleet_run (hnames : ∀ i, (setup.config i).jail_names.Nodup)
    {bans : ι → Text × Text → Option ℤ} {labels : List (Label ι τ)}
    (h : Run (Step setup) (State.initial bans) labels s) :
    Run (Fleet.Step setup) Fleet.State.initial (labels.flatMap in_fleet) s.fleet := by
  induction h with
  | nil => exact Run.nil
  | @snoc labels s₁ s₂ a hrun hlast ih =>
    rw [List.flatMap_append, List.flatMap_singleton]
    refine ih.append (fleet_view (fun i => ?_) hlast)
    exact Reconciliation.sound_run (hnames i) (Reconciliation.Sound.initial _ _ (bans i)) (host_run i hrun)

end Steps

/-! ## What is blocked

The three parts meet at the sender of each host: the bans are its active claims
(`bans_reconciled`), and what its client has claimed at the receiver are these as well, once the
outbox is empty (`fleet_blocks`). -/

/-- Once the hooks have run and the outboxes are empty, what the hosts claim is what their Fail2Bans
have banned. -/
theorem claimed_iff_banned {ι τ : Type} [DecidableEq ι] [DecidableEq τ] {setup : Setup ι}
    {bans : ι → Text × Text → Option ℤ} {labels : List (Label ι τ)} {s : State ι τ}
    (hnames : ∀ i, (setup.config i).jail_names.Nodup)
    (h : Run (Step setup) (State.initial bans) labels s)
    (hreconciled : ∀ i, Reconciliation.Reconciled (setup.config i) (labels.flatMap (on_host i)))
    (hhooks : ∀ i, (s.hosts i).hooks = [])
    (hdrained : ∀ i, pending (s.fleet.members i).sender.db = []) (i : ι) (a : IPAddress) :
    Fleet.Claimed setup (labels.flatMap in_fleet) s.fleet i a ↔
      ∃ jail ∈ (setup.config i).jail_names, (s.hosts i).bans (jail, a.str) = some (-1) := by
  have hfleet := fleet_run hnames h
  have hrun := host_run i h
  have hagreed := Reconciliation.agreed_of_reconciled (hnames i)
    (Reconciliation.Sound.initial (setup.env i) (setup.config i) (bans i)) hrun (hreconciled i)
  have hactive : ∀ pair : Text × Text, pair.1 ∈ (setup.config i).jail_names →
      is_active (s.fleet.members i).sender.db pair = decide ((s.hosts i).bans pair = some (-1)) := by
    intro pair hjail
    have hbehind := hagreed.behind pair hjail
    have hnone : (s.host i).outstanding pair = [] := by
      have hnone : (s.host i).hooks = [] := hhooks i
      rw [Reconciliation.State.outstanding, hnone, List.filter_nil]
    rw [hnone] at hbehind
    exact hbehind.caught_up
  rw [Fleet.claimed_of_drained hfleet (hdrained i)]
  constructor
  · rintro ⟨r, hr, hractive, hip⟩
    have hpair : is_active (s.fleet.members i).sender.db (r.jail, a.str) = true := by
      have hself := Sender.claim_of_self hr
      rw [show r.key = (r.jail, a.str) from by rw [← hip]; rfl] at hself
      rw [is_active, hself, Option.any_some, hractive]
    have hjail := Reconciliation.configured_run (hnames i) hrun _ hpair
    rw [hactive _ hjail, decide_eq_true_eq] at hpair
    exact ⟨r.jail, hjail, hpair⟩
  · rintro ⟨jail, hjail, hban⟩
    have hpair := (hactive (jail, a.str) hjail).trans (decide_eq_true hban)
    obtain ⟨r, hr, hractive⟩ := (Option.any_eq_true _ _).mp hpair
    obtain ⟨hmem, hkey⟩ := Sender.claim_of_eq_some.mp hr
    exact ⟨r, hmem, hractive, congrArg Prod.snd hkey⟩

/-- **The firewall blocks what the hosts have banned.** Let the hosts' senders be configured as
`from_dict` allows, and let each host have had a snapshot that counts (`Reconciled`): in its window no
hook for a configured jail that decides a claim ended without an event and no ban changed without a
hook, and since then no such hook has failed and no ban has changed without a hook. Fail2Ban behaves as
`Reconciliation.Step` says. When the hooks of each host have run and its outbox is empty, and an
enforcement returns with the same whitelist for server and helper, then an address is in the table of
its family exactly when some host's Fail2Ban has banned it for ever in a configured jail and it is not
whitelisted, whatever order hooks, snapshots, workers, copies of messages and replies took, and
however many got lost. -/
theorem firewall_blocks_bans {ι τ : Type} [DecidableEq ι] [DecidableEq τ] (setup : Setup ι)
    (lib : Sender.Library) (raw : ι → Json)
    (hconfig : ∀ i, SenderConfig.from_dict lib (raw i) = .ok (setup.config i))
    (bans : ι → Text × Text → Option ℤ) (labels : List (Label ι τ)) (s : State ι τ)
    (h : Run (Step setup) (State.initial bans) labels s)
    (hreconciled : ∀ i, Reconciliation.Reconciled (setup.config i) (labels.flatMap (on_host i)))
    (hhooks : ∀ i, (s.hosts i).hooks = [])
    (hdrained : ∀ i, pending (s.fleet.members i).sender.db = [])
    (env : HelperClient.Env) (sur : Surroundings) (pf : PF) (last_index : Option NetworkIndex)
    (count : ℕ) (w' : Enforcer.World) (data : Text) (networks : List IPNetwork)
    (hserver : sur.server_file = .ok data) (hhelper : sur.helper_file = .ok data)
    (hvalid : parse_whitelist data = .ok networks)
    (henforce : enforce env sur ⟨s.fleet.receiver, pf, last_index⟩ = (.ok count, w')) :
    ∀ version a, InTable (w'.pf.tables version) a ↔ a.version = version ∧
      (∃ i, ∃ jail ∈ (setup.config i).jail_names, (s.hosts i).bans (jail, a.str) = some (-1)) ∧
        ¬ Covered networks a := by
  have hnames := fun i => Sender.from_dict_names (hconfig i)
  have hfleet := fleet_run hnames h
  intro version a
  rw [Fleet.enforce_tables (Fleet.kept_run hfleet).served hserver hhelper hvalid henforce version a,
    Fleet.desired_iff hfleet,
    exists_congr (fun i => claimed_iff_banned hnames h hreconciled hhooks hdrained i a)]

/-! ## A host alone

An installation of one host, to show that the conditions can be met: a snapshot of a ban of old,
its way to the receiver, and the enforcement after it. -/

section Alone

variable {τ : Type}

/-- The only host and its part of the network. -/
def alone (h : Reconciliation.State τ) (v : Delivery.State) : State Unit τ :=
  ⟨fun _ => ⟨h.bans, h.hooks, h.phases⟩, ⟨fun _ => ⟨v.sender, v.sent, v.replies, v.drawn⟩, v.receiver⟩⟩

theorem put_alone (h h' : Reconciliation.State τ) (v v' : Delivery.State) :
    (alone h v).put () h' v' = alone h' v' := by
  have hupdate : ∀ {α : Type} (f : Unit → α) (x : α), Function.update f () x = fun _ => x :=
    fun f x => funext (fun _ => Function.update_self _ _ _)
  rw [State.put, Fleet.State.put, hupdate, hupdate]
  rfl

theorem host_alone {h : Reconciliation.State τ} {v : Delivery.State} (hsame : h.sender = v.sender) :
    (alone h v).host () = h := by
  have hself : (alone h v).host () = { h with sender := v.sender } := rfl
  rw [hself, ← hsame]

variable [DecidableEq τ] (setup : Setup Unit) {h h' : Reconciliation.State τ} {v v' : Delivery.State}
  {a : Reconciliation.Label τ}

theorem alone_host (hsame : h.sender = v.sender)
    (hstep : Reconciliation.Step (setup.env ()) (setup.config ()) h a h') (hnone : a.of_sender = none) :
    Step setup (alone h v) (.host () a) (alone h' v) := by
  rw [← host_alone hsame] at hstep
  have hmove := Step.host hstep hnone
  rw [put_alone] at hmove
  exact hmove

theorem alone_sender {b : Sender.Label} (hsame : h.sender = v.sender)
    (hstep : Reconciliation.Step (setup.env ()) (setup.config ()) h a h')
    (hlabel : a.of_sender = some b) (hdelivery : Delivery.Step (setup.env ()) (setup.config ())
      setup.server (setup.client ()) v (.sender b) v') (hsender : v'.sender = h'.sender) :
    Step setup (alone h v) (.host () a) (alone h' v') := by
  rw [← host_alone hsame] at hstep
  have hmove := @Step.sender Unit τ _ _ setup (alone h v) () a b h' v' hstep hlabel hdelivery hsender
  rw [put_alone] at hmove
  exact hmove

end Alone

def sample_message : Sender.Message :=
  (Sender.Payload.snapshot Reconciliation.sample_snapshot).message Sender.sample_sender

/-- The row of the snapshot. -/
def sample_row : Sender.OutboxRow :=
  Sender.payload_row Sender.sample_sender Sender.DB.initial (.snapshot Reconciliation.sample_snapshot) 0

def sample_setup : Setup Unit := Fleet.sample_setup

/-- The snapshot command has asked the jail. -/
def sample_asked : Reconciliation.State Unit :=
  Reconciliation.sample_observed.goto () (.asking 4 0 [] [Reconciliation.sample_claim])

/-- `enqueue_snapshot` has begun. -/
def sample_called : Reconciliation.State Unit :=
  { sample_asked.goto () (.writing 4 0 [Reconciliation.sample_claim]) with
    sender := { Sender.State.initial with
      calls := [⟨[Reconciliation.sample_claim], some 0, [Reconciliation.sample_claim], []⟩] } }

/-- The worker attempts the snapshot. -/
def sample_sending : Reconciliation.State Unit :=
  { Reconciliation.sample_written with sender := ⟨Reconciliation.sample_db, [], some sample_row⟩ }

/-- The UUIDs of the snapshot are drawn. -/
def sample_drawn (s : Sender.State) : Delivery.State :=
  { Delivery.State.initial with
    sender := s
    drawn := [Sender.sample_snapshot_uuid.text, Sender.sample_uuid.text] }

def sample_first : List (Label Unit Unit) := [
  .host () (.start ()), .host () (.observe ()), .host () (.ask ()),
  .host () (.call () [Reconciliation.sample_claim] 0),
  .host () (.sender (.normalize Sender.sample_uuid)),
  .host () (.written () Reconciliation.sample_call 0 Sender.sample_snapshot_uuid
    (.ok Reconciliation.sample_snapshot))]

/-- The ban of old becomes a claim. -/
theorem sample_enumerated : Run (Step sample_setup)
    (State.initial (fun _ => Reconciliation.sample_bans)) sample_first
    (alone Reconciliation.sample_written (sample_drawn ⟨Reconciliation.sample_db, [], none⟩)) := by
  have hlist : Sender.enumerate_jail (some Reconciliation.sample_answer) Reconciliation.sample_jail =
      .ok [Reconciliation.sample_claim] := by decide +kernel
  have hcommit : (Sender.commit_snapshot Sender.sample_sender Sender.DB.initial
      Reconciliation.sample_call.normalized (some 0) 0 Sender.sample_snapshot_uuid).1 =
        .ok Reconciliation.sample_snapshot := by decide
  have hstart : Step sample_setup (State.initial (fun _ => Reconciliation.sample_bans)) (.host () (.start ()))
      (alone ((Reconciliation.State.initial Reconciliation.sample_bans).goto () .started)
        Delivery.State.initial) :=
    @alone_host Unit _ sample_setup (.initial Reconciliation.sample_bans) _ .initial _ rfl
      (Reconciliation.Step.start rfl) rfl
  have hobserve : Step sample_setup _ (.host () (.observe ()))
      (alone Reconciliation.sample_observed Delivery.State.initial) :=
    alone_host sample_setup rfl (@Reconciliation.Step.observe Sender.sample_sender
      Reconciliation.sample_config Unit _ ((Reconciliation.State.initial Reconciliation.sample_bans).goto
        () .started) () 5 (Reconciliation.phases_goto_self _ _ _)) rfl
  have hasking := @Reconciliation.Step.ask Sender.sample_sender Reconciliation.sample_config Unit _
    Reconciliation.sample_observed () 4 0 Reconciliation.sample_jail [] []
    (some Reconciliation.sample_answer) (Reconciliation.phases_goto_self _ _ _)
    (fun c hc _ => Option.some.inj hc ▸ Reconciliation.sample_answers)
  rw [Phase.ask, hlist] at hasking
  have hask : Step sample_setup (alone Reconciliation.sample_observed Delivery.State.initial)
      (.host () (.ask ())) (alone sample_asked Delivery.State.initial) :=
    alone_host sample_setup rfl hasking rfl
  have hcall : Step sample_setup (alone sample_asked Delivery.State.initial)
      (.host () (.call () [Reconciliation.sample_claim] 0))
      (alone sample_called { Delivery.State.initial with sender := sample_called.sender }) := by
    have hmove := @Step.call Unit Unit _ _ sample_setup (alone sample_asked Delivery.State.initial) () ()
      [Reconciliation.sample_claim] 0 _ (Reconciliation.Step.call (Reconciliation.phases_goto_self
        Reconciliation.sample_observed () _) (Sender.Step.begin_snapshot _ _ _))
    rw [put_alone] at hmove
    exact hmove
  have hnormalize : Sender.Step Sender.sample_sender sample_called.sender
      (.normalize Sender.sample_uuid) Reconciliation.sample_writing.sender :=
    @Sender.Step.normalize Sender.sample_sender sample_called.sender [] []
      ⟨[Reconciliation.sample_claim], some 0, [Reconciliation.sample_claim], []⟩
      Reconciliation.sample_claim [] Reconciliation.sample_call.normalized Sender.sample_uuid rfl rfl
      (by decide)
  have hloop : Step sample_setup
      (alone sample_called { Delivery.State.initial with sender := sample_called.sender })
      (.host () (.sender (.normalize Sender.sample_uuid)))
      (alone Reconciliation.sample_writing { Delivery.State.initial with
        sender := Reconciliation.sample_writing.sender, drawn := [Sender.sample_uuid.text] }) :=
    alone_sender sample_setup rfl (Reconciliation.Step.sender trivial hnormalize) rfl
      (Delivery.Step.work (show Delivery.Local _ (.normalize _) from trivial)
        (fun _ _ hu => absurd hu List.not_mem_nil) hnormalize) rfl
  have hsnapshot : Sender.Step Sender.sample_sender Reconciliation.sample_writing.sender
      (.commit Reconciliation.sample_call 0 Sender.sample_snapshot_uuid
        (.ok Reconciliation.sample_snapshot)) Reconciliation.sample_written.sender :=
    @Sender.Step.commit _ _ [] [] _ _ _ _ Reconciliation.sample_db rfl rfl (Prod.ext hcommit rfl)
  have hfresh : ∀ u ∈ [Sender.sample_snapshot_uuid.text], u ∉ [Sender.sample_uuid.text] := by decide
  have hwritten : Step sample_setup (alone Reconciliation.sample_writing { Delivery.State.initial with
        sender := Reconciliation.sample_writing.sender, drawn := [Sender.sample_uuid.text] })
      (.host () (.written () Reconciliation.sample_call 0 Sender.sample_snapshot_uuid
        (.ok Reconciliation.sample_snapshot)))
      (alone Reconciliation.sample_written (sample_drawn ⟨Reconciliation.sample_db, [], none⟩)) :=
    alone_sender sample_setup rfl (@Reconciliation.Step.written _ _ Unit _ Reconciliation.sample_writing ()
      4 0 [Reconciliation.sample_claim] Reconciliation.sample_call 0 Sender.sample_snapshot_uuid
      (.ok Reconciliation.sample_snapshot) _ (Reconciliation.phases_goto_self sample_asked () _) rfl rfl
      hsnapshot) rfl
      (Delivery.Step.work (show Delivery.Local _ (.commit _ _ _ _) from trivial) hfresh hsnapshot) rfl
  exact Run.cons hstart (Run.cons hobserve (Run.cons hask (Run.cons hcall (Run.cons hloop
    (Run.single hwritten)))))

/-- The store after the snapshot. -/
def sample_store : Store.DB :=
  (Server.do_POST Delivery.sample_server Delivery.sample_client Store.DB.initial sample_message.path
    sample_message.body 0 (fun _ => .ok 1)).2

def sample_last : List (Label Unit Unit) := [
  .host () (.sender (.next_due 0)), .net () (.process sample_message 0),
  .host () (.sender (.finish sample_row 1 true))]

/-- The claim goes to the receiver, and its reply comes back. -/
theorem sample_delivered : ∃ s : State Unit Unit, Run (Step sample_setup)
    (alone Reconciliation.sample_written (sample_drawn ⟨Reconciliation.sample_db, [], none⟩)) sample_last s ∧
    s.fleet.receiver = sample_store ∧ (s.hosts ()).hooks = [] ∧
    pending (s.fleet.members ()).sender.db = [] ∧
    (s.hosts ()).bans Reconciliation.sample_pair = some (-1) := by
  have hmessage : Delivery.row_message Sender.sample_sender sample_row = .ok sample_message := by
    decide +kernel
  have hany : (Server.do_POST Delivery.sample_server Delivery.sample_client Store.DB.initial
      sample_message.path sample_message.body 0 (fun _ => .ok 1)).1.any Delivery.acknowledges = true := by
    decide +kernel
  obtain ⟨r, hr, hack⟩ := (Option.any_eq_true _ _).mp hany
  have hpost : Server.do_POST Delivery.sample_server Delivery.sample_client Store.DB.initial
      sample_message.path sample_message.body 0 (fun _ => .ok 1) = (some r, sample_store) := by
    rw [sample_store, ← hr]
  have hdue : Sender.Step Sender.sample_sender Reconciliation.sample_written.sender (.next_due 0)
      sample_sending.sender := Sender.Step.next_due rfl (by decide +kernel)
  have hattempt := @Delivery.Step.attempt Sender.sample_sender Reconciliation.sample_config
    Delivery.sample_server Delivery.sample_client
    (sample_drawn ⟨Reconciliation.sample_db, [], none⟩) 0 sample_row hdue
  rw [hmessage] at hattempt
  have hsend := @alone_sender Unit _ sample_setup Reconciliation.sample_written sample_sending
    _ _ _ _ rfl (@Reconciliation.Step.sender _ _ Unit _ Reconciliation.sample_written (.next_due 0) _
      trivial hdue) rfl hattempt rfl
  have hprocess := @Step.net Unit Unit _ _ sample_setup
    (alone sample_sending { sample_drawn sample_sending.sender with sent := [sample_message] }) ()
    (.process sample_message 0) _ trivial rfl (Delivery.Step.process List.mem_cons_self hpost)
  rw [put_alone] at hprocess
  have hfinish : Sender.Step Sender.sample_sender sample_sending.sender (.finish sample_row 1 true)
      ⟨Sender.finish_attempt Sender.sample_sender Reconciliation.sample_db sample_row 1 true, [], none⟩ :=
    Sender.Step.finish rfl
  have hreply := @Delivery.Step.acknowledged Sender.sample_sender Reconciliation.sample_config
    Delivery.sample_server Delivery.sample_client
    { sample_drawn sample_sending.sender with
      sent := [sample_message], receiver := sample_store, replies := [(sample_message, r)] }
    sample_row 1 sample_message r _ hmessage List.mem_cons_self hack hfinish
  have hlast := @alone_sender Unit _ sample_setup sample_sending _ _ _ _ _ rfl
    (@Reconciliation.Step.sender _ _ Unit _ sample_sending (.finish sample_row 1 true) _ trivial hfinish)
    rfl hreply rfl
  have hdrained : pending (Sender.finish_attempt Sender.sample_sender Reconciliation.sample_db sample_row 1
      true) = [] := by decide +kernel
  exact ⟨_, Run.cons hsend (Run.cons hprocess (Run.single hlast)), by rw [alone], by rw [alone]; rfl, hdrained, rfl⟩

theorem sample_reconciled : Reconciliation.Reconciled (sample_setup.config ())
    ((sample_first ++ sample_last).flatMap (on_host ())) := by
  have hlabels : (sample_first ++ sample_last).flatMap (on_host ()) =
      [.start ()] ++ .observe () :: ([.ask (), .call () [Reconciliation.sample_claim] 0,
          .sender (.normalize Sender.sample_uuid)] ++
        .written () Reconciliation.sample_call 0 Sender.sample_snapshot_uuid
          (.ok Reconciliation.sample_snapshot) ::
        [.sender (.next_due 0), .sender (.finish sample_row 1 true)]) := rfl
  rw [hlabels]
  refine Reconciliation.Reconciled.mk ?_ ?_
  · intro a ha
    simp only [List.mem_cons, List.not_mem_nil, or_false] at ha
    rcases ha with rfl | rfl | rfl <;> exact ⟨fun h => (by cases h), fun h => (by cases h)⟩
  · intro a ha
    simp only [List.mem_cons, List.not_mem_nil, or_false] at ha
    rcases ha with rfl | rfl <;> exact ⟨fun h => (by cases h), fun h => (by cases h)⟩

/-- The helper blocks what it got. -/
theorem sample_enforced : ∃ (s : State Unit Unit) (w' : Enforcer.World),
    Run (Step sample_setup) (State.initial (fun _ => Reconciliation.sample_bans))
      (sample_first ++ sample_last) s ∧
    (s.hosts ()).hooks = [] ∧ pending (s.fleet.members ()).sender.db = [] ∧
    (s.hosts ()).bans Reconciliation.sample_pair = some (-1) ∧
    enforce Enforcer.sample_env Enforcer.sample_surroundings
      ⟨s.fleet.receiver, ⟨fun _ => [], []⟩, none⟩ = (.ok 1, w') := by
  obtain ⟨s, hdelivered, hreceiver, hhooks, hdrained, hban⟩ := sample_delivered
  have henforce : (enforce Enforcer.sample_env Enforcer.sample_surroundings
      ⟨sample_store, ⟨fun _ => [], []⟩, none⟩).1 = .ok 1 := by
    decide +kernel
  have hpair := Prod.mk.eta (p := enforce Enforcer.sample_env Enforcer.sample_surroundings
      ⟨sample_store, ⟨fun _ => [], []⟩, none⟩)
  rw [henforce, ← hreceiver] at hpair
  exact ⟨s, _, sample_enumerated.append hdelivered, hhooks, hdrained, hban, hpair.symm⟩

theorem sample_valid :
    parse_whitelist "# trusted\n192.0.2.0/30\n".toList = .ok Enforcer.sample_networks := by
  decide +kernel

theorem sample_not_covered : ¬ Covered Enforcer.sample_networks (.v4 3405803783) := by
  rintro ⟨n, hn, hcontains⟩
  rw [Enforcer.sample_networks, List.mem_singleton] at hn
  subst hn
  exact absurd hcontains (by decide)

theorem firewall_blocks_bans_old : ∃ (s : State Unit Unit) (w' : Enforcer.World),
    (s.hosts ()).bans Reconciliation.sample_pair = some (-1) ∧
    InTable (w'.pf.tables .four) (.v4 3405803783) := by
  obtain ⟨s, w', hrun, hhooks, hdrained, hban, henforce⟩ := sample_enforced
  have hblocked := firewall_blocks_bans sample_setup Sender.sample_library
    (fun _ => Sender.sample_raw "sshd") (fun _ => rfl) (fun _ => Reconciliation.sample_bans) _ s hrun
    (fun _ => sample_reconciled) (fun _ => hhooks) (fun _ => hdrained)
    Enforcer.sample_env Enforcer.sample_surroundings ⟨fun _ => [], []⟩ none 1 w' _
    Enforcer.sample_networks rfl rfl sample_valid henforce .four (.v4 3405803783)
  exact ⟨s, w', hban, hblocked.mpr ⟨rfl, ⟨(), "sshd".toList, by decide, hban⟩, sample_not_covered⟩⟩

end F2bguard.Installation
