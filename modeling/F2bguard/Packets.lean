/-
From a ban on a host to a packet at the firewall.

The helper has filled the tables (`Installation`), and the filter has loaded the rules that refer to
them (`Rules`). A packet that comes in on a guarded interface is then dropped exactly when a host's
Fail2Ban has banned its source for ever in a configured jail and the source is not whitelisted; the
users' rules decide about all other packets (`bans_are_dropped`).
-/
import F2bguard.Installation
import F2bguard.Rules

set_option autoImplicit false

namespace F2bguard.Packets

open F2bguard.PyText F2bguard.PyJson F2bguard.Ipaddress F2bguard.Networks F2bguard.Whitelist
open F2bguard.PfHelper F2bguard.Runs F2bguard.Installation F2bguard.PacketFilter F2bguard.Rules
open F2bguard.Sender (SenderConfig pending)
open F2bguard.Fleet (Setup)
open F2bguard.Enforcer (Surroundings enforce)

/-- The version of the addresses of a family. -/
def version : Family → Version
  | .inet => .four
  | .inet6 => .six

/-- The address is in a network that stands on a line of the table's text. -/
def in_table (table : Text) (a : IPAddress) : Bool :=
  (splitlines table).any (fun line => (ip_network true (strip line)).any (fun n => n.Contains a))

/-- The filter looks an address up in the tables that the helper fills. -/
def lookup (tables : Version → Text) (name : Text) (a : IPAddress) : Bool :=
  if name = table .inet then in_table (tables .four) a
  else if name = table .inet6 then in_table (tables .six) a
  else false

theorem in_table_iff {table : Text} {a : IPAddress} : in_table table a = true ↔ InTable table a := by
  rw [in_table, List.any_eq_true, InTable]
  refine exists_congr (fun line => and_congr_right (fun _ => ?_))
  rw [Option.any_eq_true]
  exact exists_congr (fun n => and_congr_right (fun _ => decide_eq_true_iff))

theorem lookup_iff (tables : Version → Text) (family : Family) (a : IPAddress) :
    lookup tables (table family) a = true ↔ InTable (tables (version family)) a := by
  have hne : table .inet6 ≠ table .inet := by decide
  rw [← in_table_iff, lookup]
  cases family with
  | inet => rw [if_pos rfl, version]
  | inet6 => rw [if_neg hne, if_pos rfl, version]

/-- The packet comes in on a guarded interface, from an address of its family that is banned for ever
on some host and not whitelisted. -/
structure Dropped {ι τ : Type} (setup : Setup ι) (s : State ι τ) (networks : List IPNetwork)
    (reals : List Text) (packet : Packet IPAddress) : Prop where
  incoming : packet.direction = .incoming
  guarded : ∃ real ∈ reals, real ∈ packet.interfaces
  version : packet.source.version = Packets.version packet.family
  banned : ∃ i, ∃ jail ∈ (setup.config i).jail_names,
    (s.hosts i).bans (jail, packet.source.str) = some (-1)
  not_whitelisted : ¬ Covered networks packet.source

/-- **From a ban to a packet.** The hosts, the network, the receiver and pf run as in
`Installation.firewall_blocks_bans`, under its conditions: each host has had a snapshot in whose window
no hook for a configured jail that decides a claim ended without an event and no ban changed without a
hook, and since then no such hook has failed and no ban has changed without a hook (`Reconciled`); its
hooks have run and its outbox is empty; and an enforcement has returned with the same whitelist for
server and helper. Let the filter have loaded what `f2bguard_generate_rules` returned in front of any
other text, where the guarded interfaces are interfaces to the filter.

A packet that is `Dropped` is then blocked whatever the other rules say, and about any other packet
the filter decides as with the other text alone. -/
theorem bans_are_dropped {ι τ : Type} [DecidableEq ι] [DecidableEq τ] (setup : Setup ι)
    (lib : Sender.Library) (raw : ι → Json)
    (hconfig : ∀ i, SenderConfig.from_dict lib (raw i) = .ok (setup.config i))
    (bans : ι → Text × Text → Option ℤ) (labels : List (Label ι τ)) (s : State ι τ)
    (h : Run (Step setup) (State.initial bans) labels s)
    (hreconciled : ∀ i, Reconciliation.Reconciled (setup.config i) (labels.flatMap (on_host i)))
    (hhooks : ∀ i, (s.hosts i).hooks = [])
    (hdrained : ∀ i, pending (s.fleet.members i).sender.db = [])
    (env : HelperClient.Env) (sur : Surroundings) (pf : PF) (last_index : Option NetworkIndex)
    (count : ℕ) (w' : Enforcer.World) (data : Text) (networks : List IPNetwork)
    (hserver : sur.server_file = .ok data) (hhelper : sur.helper_file = .ok data)
    (hvalid : parse_whitelist data = .ok networks)
    (henforce : enforce env sur ⟨s.fleet.receiver, pf, last_index⟩ = (.ok count, w'))
    (filter : Engine IPAddress) (m : Service.Machine) (site : Interfaces) (root : Php.Value)
    (ruletype : Text) (w : Service.World)
    (hnames : ∀ real ∈ guarded m site root ruletype, filter.is_interface real) (rest : Text)
    (rules : filter.Ruleset)
    (hload : filter.load ((generate_rules m site root ruletype w).1 ++ rest) = some rules) :
    ∃ others, filter.load rest = some others ∧ ∀ packet : Packet IPAddress,
      (Dropped setup s networks (guarded m site root ruletype) packet →
        filter.decides rules (lookup w'.pf.tables) packet = .block) ∧
      (¬ Dropped setup s networks (guarded m site root ruletype) packet →
        filter.decides rules (lookup w'.pf.tables) packet =
          filter.decides others (lookup w'.pf.tables) packet) := by
  have hconfigured := fun i => Sender.from_dict_names (hconfig i)
  have hfleet := fleet_run hconfigured h
  obtain ⟨others, hothers, hbefore⟩ := before_generated hnames hload
  refine ⟨others, hothers, fun packet => ?_⟩
  have htable := Fleet.enforce_tables (Fleet.kept_run hfleet).served hserver hhelper hvalid henforce
    (version packet.family) packet.source
  rw [Fleet.desired_iff hfleet, exists_congr (fun i =>
    claimed_iff_banned hconfigured h hreconciled hhooks hdrained i packet.source)] at htable
  have hdropped : Stopped (guarded m site root ruletype) (lookup w'.pf.tables) packet ↔
      Dropped setup s networks (guarded m site root ruletype) packet := by
    rw [Stopped, lookup_iff, htable]
    constructor
    · rintro ⟨hincoming, hguarded, hversion, hbanned, hcovered⟩
      exact ⟨hincoming, hguarded, hversion, hbanned, hcovered⟩
    · exact fun hd => ⟨hd.incoming, hd.guarded, hd.version, hd.banned, hd.not_whitelisted⟩
  exact ⟨fun hd => hbefore.blocks _ packet (hdropped.mpr hd),
    fun hd => hbefore.leaves _ packet (fun h => hd (hdropped.mp h))⟩

/-- The ban of the sample installation, at its WAN interface. -/
theorem bans_are_dropped_wan : ∃ (s : State Unit Unit) (w' : Enforcer.World)
    (rules : (sample_filter IPAddress).Ruleset),
    (sample_filter IPAddress).load (sample_rules ++ []) = some rules ∧
      (s.hosts ()).bans Reconciliation.sample_pair = some (-1) ∧
      (sample_filter IPAddress).decides rules (lookup w'.pf.tables)
        ⟨.incoming, ["vtnet0".toList], .inet, .v4 3405803783⟩ = .block := by
  obtain ⟨s, w', hrun, hhooks, hdrained, hban, henforce⟩ := sample_enforced
  obtain ⟨rules, hload⟩ := @sample_rules_loaded IPAddress
  obtain ⟨others, -, hpackets⟩ := bans_are_dropped sample_setup Sender.sample_library
    (fun _ => Sender.sample_raw "sshd") (fun _ => rfl) (fun _ => Reconciliation.sample_bans) _ s hrun
    (fun _ => sample_reconciled) (fun _ => hhooks) (fun _ => hdrained)
    Enforcer.sample_env Enforcer.sample_surroundings ⟨fun _ => [], []⟩ none 1 w' _
    Enforcer.sample_networks rfl rfl sample_valid henforce (sample_filter IPAddress)
    Service.full_disk sample_site sample_root "pfearly".toList {} sample_names [] rules hload
  refine ⟨s, w', rules, hload, hban,
    (hpackets ⟨.incoming, ["vtnet0".toList], .inet, .v4 3405803783⟩).1 ?_⟩
  rw [sample_guarded]
  exact ⟨rfl, ⟨_, List.mem_cons_self, List.mem_cons_self⟩, rfl,
    ⟨(), "sshd".toList, by decide, hban⟩, sample_not_covered⟩

end F2bguard.Packets
