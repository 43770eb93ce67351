/-
The rules of the package in the packet filter.

pfSense calls `f2bguard_generate_rules` whenever it writes the rules of the firewall, and puts what
it returns before the rules of the users. The text declares the two tables that the helper fills, and
has two rules for each selected interface. Once the filter has loaded it, a packet is blocked when it
comes in on a selected interface from an address in the table of its family; about any other packet
the rules that follow decide, as without the package (`generated_rules_block`). So the whitelist,
which only keeps addresses out of the tables, lets nothing through that these rules block.

The filter is any `Engine`, and what follows the text is any text. Of `get_real_interface` the result
needs that it names interfaces of the filter.
-/
import F2bguard.PacketFilter
import F2bguard.Pages
import F2bguard.Service

set_option autoImplicit false

namespace F2bguard.Rules

open F2bguard.PyText F2bguard.Php F2bguard.ConfigStore F2bguard.PacketFilter
open F2bguard.Pages (interface_re)

/-! ## `f2bguard_generate_rules` -/

/-- What pfSense tells of its interfaces. -/
structure Interfaces where
  /-- the keys of `f2bguard_get_interfaces()` -/
  get_interfaces : Value → List Text
  /-- `get_real_interface($interface)`, or `$interface` where there is no such function -/
  get_real_interface : Text → Value

/-- The table of a family. -/
def table : Family → Text
  | .inet => "f2bguard_v4".toList
  | .inet6 => "f2bguard_v6".toList

/-- The two rules of an interface. -/
def block_rules (real : Text) : Text :=
  "block in quick on ".toList ++ real ++
      " inet from <f2bguard_v4> to any label \"f2bguard\"\n".toList ++
    ("block in quick on ".toList ++ real ++
      " inet6 from <f2bguard_v6> to any label \"f2bguard\"\n".toList)

/-- The loop over the interfaces up to its rules: `continue` is `none`. -/
def real_interface (site : Interfaces) (root : Value) : Value → Option Text
  | .str interface =>
    if !interface_re interface then none
    else if interface ∉ site.get_interfaces root then none
    else match site.get_real_interface interface with
      | .str real => if interface_re real then some real else none
      | _ => none
  | _ => none

/-- `f2bguard_generate_rules`: the rules, the tables that are added to `$reserved_table_names`, and
what was done meanwhile. -/
def generate_rules (m : Service.Machine) (site : Interfaces) (root : Value) (ruletype : Text)
    (w : Service.World) : Text × List Text × Service.World :=
  let cfg := get_config m.php root
  if is_empty (entry cfg "enabled") ∨ ruletype ≠ "pfearly".toList then ([], [], w)
  else
    let interfaces := to_array (m.php.array_get_path (.arr cfg) [name "wan_interfaces"] (.arr []))
    if interfaces.isEmpty then ([], [], w)
    else
      let w := (Service.refresh_whitelist m root cfg w).2
      let rules := "# Fail2Ban Guard package-owned tables and rules\n".toList ++
        "table <f2bguard_v4> persist\n".toList ++ "table <f2bguard_v6> persist\n".toList
      (rules ++ ((array_values interfaces).filterMap (real_interface site root)).flatMap block_rules,
        [table .inet, table .inet6], w)

/-! ## What the callback returns

Head and rules, or nothing. The list of the guarded interfaces is the same in both descriptions,
that of the source and that by the settings as they are read. -/

/-- The interfaces that get rules, in order. -/
def guarded (m : Service.Machine) (site : Interfaces) (root : Value) (ruletype : Text) : List Text :=
  if ruletype = "pfearly".toList ∧
      normalize_enabled (m.php.array_get_path (.arr (merged m.php root)) [name "enabled"]
        (.bool false)) = true then
    (read_wan_interfaces m.php root).2.filterMap (real_interface site root)
  else []

theorem get_config_enabled (php : Library) (root : Value) :
    entry (get_config php root) "enabled" = .bool
      (normalize_enabled (php.array_get_path (.arr (merged php root)) [name "enabled"]
        (.bool false))) := by
  unfold entry get_config
  dsimp only
  split <;> simp [get_put, name]

theorem get_config_interfaces (php : Library) (root : Value) :
    php.array_get_path (.arr (get_config php root)) [name "wan_interfaces"] (.arr []) =
      of_list (read_wan_interfaces php root).2 := by
  have hget : get (get_config php root) (name "wan_interfaces") =
      some (of_list (read_wan_interfaces php root).2) := by
    unfold get_config
    dsimp only
    split <;> simp [get_put, name]
  exact php.get_entry hget (fun h => (by cases h)) _

def header : Text := "# Fail2Ban Guard package-owned tables and rules\n".toList ++
  "table <f2bguard_v4> persist\n".toList ++ "table <f2bguard_v6> persist\n".toList

/-- What the callback returns. -/
theorem generate_rules_eq (m : Service.Machine) (site : Interfaces) (root : Value) (ruletype : Text)
    (w : Service.World) :
    ((generate_rules m site root ruletype w).1 = [] ∧ (generate_rules m site root ruletype w).2.1 = [] ∧
        guarded m site root ruletype = []) ∨
      (generate_rules m site root ruletype w).1 =
          header ++ (guarded m site root ruletype).flatMap block_rules ∧
        (generate_rules m site root ruletype w).2.1 = [table .inet, table .inet6] := by
  have harray : array_values (to_array (of_list (read_wan_interfaces m.php root).2)) =
      (read_wan_interfaces m.php root).2 := array_values_of_list _
  unfold generate_rules
  dsimp only
  rw [get_config_enabled, get_config_interfaces]
  split
  · rename_i hoff
    refine .inl ⟨rfl, rfl, ?_⟩
    rw [guarded]
    refine if_neg ?_
    rintro ⟨htype, henabled⟩
    rw [henabled] at hoff
    rcases hoff with hoff | hoff
    · cases hoff
    · exact hoff htype
  · rename_i hon
    rw [not_or, not_not] at hon
    obtain ⟨henabled, htype⟩ := hon
    have hguarded : guarded m site root ruletype =
        (read_wan_interfaces m.php root).2.filterMap (real_interface site root) := by
      rw [guarded]
      refine if_pos ⟨htype, ?_⟩
      rw [is_empty, Bool.not_eq_true, Bool.not_eq_false'] at henabled
      exact henabled
    rw [hguarded]
    split
    · rename_i hempty
      refine .inl ⟨rfl, rfl, ?_⟩
      rw [List.isEmpty_iff] at hempty
      rw [← harray, hempty]
      rfl
    · rw [harray]
      exact .inr ⟨rfl, rfl⟩

/-! ## The text, line by line

The text as lines in front of any other text, so that the laws of the filter can be applied from
the first line to the last. The rules of several interfaces are gone through by induction over the
interfaces. -/

def remark : Text := " Fail2Ban Guard package-owned tables and rules".toList

def label : Text := "f2bguard".toList

theorem header_lines : header =
    comment_line remark ++ (table_line (table .inet) ++ table_line (table .inet6)) := by
  decide +kernel

theorem block_rules_lines (real : Text) : block_rules real =
    block_line real .inet (table .inet) label ++ block_line real .inet6 (table .inet6) label := by
  have hline : ∀ family : Family, block_line real family (table family) label =
      "block in quick on ".toList ++ real ++ ' ' :: (family_word family ++ (" from <".toList ++
        (table family ++ (block_end label ++ ['\n'])))) := by
    intro family
    unfold block_line block_start
    simp only [List.append_assoc, List.cons_append]
  have hinet : " inet from <f2bguard_v4> to any label \"f2bguard\"\n".toList =
      ' ' :: (family_word .inet ++ (" from <".toList ++ (table .inet ++ (block_end label ++ ['\n'])))) :=
    by decide +kernel
  have hinet6 : " inet6 from <f2bguard_v6> to any label \"f2bguard\"\n".toList =
      ' ' :: (family_word .inet6 ++ (" from <".toList ++ (table .inet6 ++ (block_end label ++ ['\n'])))) :=
    by decide +kernel
  rw [hline, hline]
  exact congrArg₂ (fun first second => "block in quick on ".toList ++ real ++ first ++
    ("block in quick on ".toList ++ real ++ second)) hinet hinet6

section

variable {α : Type} {filter : Engine α}

/-- The packet comes in on one of the interfaces, from an address in the table of its family. -/
def Stopped (reals : List Text) (addresses : Text → α → Bool) (packet : Packet α) : Prop :=
  packet.direction = .incoming ∧ (∃ real ∈ reals, real ∈ packet.interfaces) ∧
    addresses (table packet.family) packet.source = true

instance (reals : List Text) (addresses : Text → α → Bool) (packet : Packet α) :
    Decidable (Stopped reals addresses packet) := inferInstanceAs (Decidable (_ ∧ _))

theorem stopped_nil {addresses : Text → α → Bool} {packet : Packet α} :
    ¬ Stopped [] addresses packet := by
  rintro ⟨-, ⟨real, hreal, -⟩, -⟩
  exact List.not_mem_nil hreal

/-- One more interface: its rule for either family, or the rules of the others. -/
theorem stopped_cons {real : Text} {reals : List Text} {addresses : Text → α → Bool}
    {packet : Packet α} :
    Blocked addresses packet real .inet (table .inet) ∨
        Blocked addresses packet real .inet6 (table .inet6) ∨ Stopped reals addresses packet ↔
      Stopped (real :: reals) addresses packet := by
  have hfamily : Blocked addresses packet real .inet (table .inet) ∨
      Blocked addresses packet real .inet6 (table .inet6) ↔
        packet.direction = .incoming ∧ real ∈ packet.interfaces ∧
          addresses (table packet.family) packet.source = true := by
    constructor
    · rintro (⟨hdirection, hinterface, hfamily, hsource⟩ | ⟨hdirection, hinterface, hfamily, hsource⟩)
      · exact ⟨hdirection, hinterface, hfamily ▸ hsource⟩
      · exact ⟨hdirection, hinterface, hfamily ▸ hsource⟩
    · rintro ⟨hdirection, hinterface, hsource⟩
      cases hf : packet.family with
      | inet => exact .inl ⟨hdirection, hinterface, hf, hf ▸ hsource⟩
      | inet6 => exact .inr ⟨hdirection, hinterface, hf, hf ▸ hsource⟩
  rw [← or_assoc, hfamily, Stopped, Stopped, List.exists_mem_cons_iff]
  tauto

/-- The rules of the interfaces, in front of a text. -/
theorem before_block_rules {reals : List Text} (hnames : ∀ real ∈ reals, filter.is_interface real)
    {rest : Text} : ∀ {rules : filter.Ruleset},
      filter.load (reals.flatMap block_rules ++ rest) = some rules →
      ∃ others, filter.load rest = some others ∧ filter.Before [] (Stopped reals) rules others := by
  induction reals with
  | nil =>
    intro rules h
    exact ⟨rules, h, (Engine.Before.refl rules).congr (fun _ _ => (iff_false_right stopped_nil).mpr id)⟩
  | cons real reals ih =>
    intro rules h
    rw [List.forall_mem_cons] at hnames
    rw [List.flatMap_cons, block_rules_lines, List.append_assoc, List.append_assoc] at h
    -- the two rules of the interface, then those of the others
    obtain ⟨rules4, hload4, hbefore4⟩ := Engine.before_block hnames.1 (by decide) (by decide) h
    obtain ⟨rules6, hload6, hbefore6⟩ := Engine.before_block hnames.1 (by decide) (by decide) hload4
    obtain ⟨others, hload, hbefore⟩ := ih hnames.2 hload6
    exact ⟨others, hload, (hbefore4.trans (hbefore6.trans hbefore)).congr (fun _ _ => stopped_cons)⟩

/-- The head of the text. -/
theorem before_header {rest : Text} {rules : filter.Ruleset}
    (h : filter.load (header ++ rest) = some rules) :
    ∃ others, filter.load rest = some others ∧
      filter.Before [table .inet, table .inet6] (fun _ _ => False) rules others := by
  rw [header_lines, List.append_assoc, List.append_assoc] at h
  obtain ⟨rules0, hload0, hbefore0⟩ := Engine.before_comment (by decide) h
  obtain ⟨rules4, hload4, hbefore4⟩ := Engine.before_table (by decide) hload0
  obtain ⟨others, hload, hbefore6⟩ := Engine.before_table (by decide) hload4
  exact ⟨others, hload, (hbefore0.trans (hbefore4.trans hbefore6)).congr (fun _ _ => by tauto)⟩

/-- What the callback returns, in front of a text. -/
theorem before_generated {m : Service.Machine} {site : Interfaces} {root : Value} {ruletype : Text}
    {w : Service.World} (hnames : ∀ real ∈ guarded m site root ruletype, filter.is_interface real)
    {rest : Text} {rules : filter.Ruleset}
    (h : filter.load ((generate_rules m site root ruletype w).1 ++ rest) = some rules) :
    ∃ others, filter.load rest = some others ∧
      filter.Before (generate_rules m site root ruletype w).2.1
        (Stopped (guarded m site root ruletype)) rules others := by
  rcases generate_rules_eq m site root ruletype w with ⟨htext, hreserved, hnone⟩ | ⟨htext, hreserved⟩
  · rw [htext] at h
    rw [hreserved, hnone]
    exact ⟨rules, h, (Engine.Before.refl rules).congr (fun _ _ => (iff_false_right stopped_nil).mpr id)⟩
  · rw [htext, List.append_assoc] at h
    obtain ⟨rules0, hload0, hbefore0⟩ := before_header h
    obtain ⟨others, hload, hbefore⟩ := before_block_rules hnames hload0
    rw [hreserved]
    exact ⟨others, hload, (hbefore0.trans hbefore).congr (fun _ _ => by tauto)⟩

end

/-- **What the rules of the package block.** Let the filter have loaded what the callback returned in
front of any other text, where the interfaces that get rules are interfaces to the filter. Then it
would load the other text alone, too. The tables of the rules are declared and reserved. A packet is
blocked when it comes in on a guarded interface and its source is in the table of its family; about
any other packet the filter decides as with the other text alone, so that no packet gets through that
the other rules would block. -/
theorem generated_rules_block {α : Type} (filter : Engine α) (m : Service.Machine) (site : Interfaces)
    (root : Value) (ruletype : Text) (w : Service.World)
    (hnames : ∀ real ∈ guarded m site root ruletype, filter.is_interface real) (rest : Text)
    (rules : filter.Ruleset)
    (hload : filter.load ((generate_rules m site root ruletype w).1 ++ rest) = some rules) :
    (guarded m site root ruletype ≠ [] →
      ∀ family, table family ∈ (generate_rules m site root ruletype w).2.1) ∧
    ∃ others, filter.load rest = some others ∧
      filter.tables rules = (generate_rules m site root ruletype w).2.1 ++ filter.tables others ∧
      ∀ addresses packet, filter.decides rules addresses packet =
        if Stopped (guarded m site root ruletype) addresses packet then .block
        else filter.decides others addresses packet := by
  constructor
  · intro hguarded family
    rcases generate_rules_eq m site root ruletype w with ⟨-, -, hnone⟩ | ⟨-, hreserved⟩
    · exact absurd hnone hguarded
    · rw [hreserved]
      cases family <;> decide
  · obtain ⟨others, hothers, hbefore⟩ := before_generated hnames hload
    refine ⟨others, hothers, hbefore.tables, fun addresses packet => ?_⟩
    split
    · rename_i hstopped
      exact hbefore.blocks addresses packet hstopped
    · rename_i hstopped
      exact hbefore.leaves addresses packet hstopped

/-! ## A WAN interface

One interface of two is guarded: a packet at it is blocked, and the same packet at the other is
not. -/

def sample_site : Interfaces where
  get_interfaces _ := ["wan".toList, "lan".toList]
  get_real_interface interface := if interface = "wan".toList then .str "vtnet0".toList else .bool false

/-- A configuration that enables the package on the WAN interface. -/
def sample_root : Value :=
  .arr [(name "installedpackages", .arr [(name "f2bguard", .arr [(name "config", .arr [
    (name "enabled", .str "yes".toList), (name "wan_interfaces", of_list [.str "wan".toList])])])])]

theorem sample_guarded : guarded Service.full_disk sample_site sample_root "pfearly".toList =
    ["vtnet0".toList] := by decide +kernel

theorem sample_names {α : Type} :
    ∀ real ∈ guarded Service.full_disk sample_site sample_root "pfearly".toList,
      (sample_filter α).is_interface real := by
  rw [sample_guarded]
  intro real hreal
  exact List.mem_singleton.mp hreal

def sample_rules : Text :=
  (generate_rules Service.full_disk sample_site sample_root "pfearly".toList {}).1

theorem sample_rules_loaded {α : Type} : ∃ rules, (sample_filter α).load (sample_rules ++ []) = some rules := by
  rw [← Option.isSome_iff_exists]
  show (sample_load (sample_rules ++ [])).isSome = true
  decide +kernel

def sample_tables (table : Text) (source : ℕ) : Bool := table = "f2bguard_v4".toList && source = 3405803783

/-- An address in the table does not get in on the WAN interface, and comes in on another. -/
theorem generated_rules_block_wan : ∃ rules, (sample_filter ℕ).load (sample_rules ++ []) = some rules ∧
    (sample_filter ℕ).decides rules sample_tables ⟨.incoming, ["vtnet0".toList], .inet, 3405803783⟩ =
      .block ∧
    (sample_filter ℕ).decides rules sample_tables ⟨.incoming, ["vtnet1".toList], .inet, 3405803783⟩ =
      .pass := by
  obtain ⟨rules, hload⟩ := @sample_rules_loaded ℕ
  obtain ⟨-, others, hothers, -, hdecides⟩ := generated_rules_block (sample_filter ℕ) Service.full_disk
    sample_site sample_root "pfearly".toList {} sample_names [] rules hload
  have hnothing : others = [] := by
    cases hothers
    rfl
  refine ⟨rules, hload, ?_, ?_⟩
  · rw [hdecides, sample_guarded]
    exact if_pos ⟨rfl, ⟨_, List.mem_cons_self, List.mem_cons_self⟩, by decide⟩
  · rw [hdecides, sample_guarded, hnothing, if_neg (by decide)]
    rfl

end F2bguard.Rules
