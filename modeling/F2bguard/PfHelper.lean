/-
The privileged helper (`pf_helper.py`): one request, two tables.

`PFUpdater.replace` validates a request, reads the whitelist and both tables, and only then
replaces the tables one after the other. Each call of `pfctl` may succeed, or fail and leave
its table as it was; when a replacement fails the tables are rolled back to what was read,
without what is now whitelisted. `replace_spec` is what can have happened afterwards, for
every pattern of failures.

The helper runs as root and trusts nobody: neither the service, whose request it checks again, nor
the tables, which it refuses to touch when they hold something it did not write.
-/
import F2bguard.Whitelist
import F2bguard.PyJson

set_option autoImplicit false

namespace F2bguard.PfHelper

open F2bguard.PyText F2bguard.PyJson F2bguard.Ipaddress F2bguard.Networks F2bguard.Whitelist

def MAX_MESSAGE : ℕ := 4 * 1024 * 1024

def MAX_ADDRESSES : ℕ := 100000

def helper_error {α : Type} (message : Text) : Except Raised α := .error (.helper_error message)

/-! ## `parse_request`

The request is a JSON value of any shape. Every check that fails raises `HelperError` with a
message of its own, and the first one that fails decides. -/

/-- One turn of the loop over the addresses of a family. A literal has to be the text the library
would print for it, so that what is written to the table is what was sent; a scope id is refused
before the library could accept it. -/
def parse_address (version : Version) (value : Json) : Except Raised IPAddress :=
  match value with
  | .str value =>
      if '%' ∈ value then helper_error "invalid IP literal".toList
      else
        match ip_address value with
        | none => helper_error "invalid IP literal".toList
        | some address =>
            if address.version ≠ version ∨ address.str ≠ value then
              helper_error "noncanonical or wrong-family IP".toList
            else if address.is_protected then helper_error "protected special-purpose IP".toList
            else .ok address
  | _ => helper_error "invalid IP literal".toList

/-- `sorted(addresses)` of a set. -/
def sorted_set (addresses : List IPAddress) : List IPAddress :=
  addresses.dedup.insertionSort (fun a b => a.toNat ≤ b.toNat)

/-- The addresses of a family and the count so far. The count is of the literals that were sent,
before repetitions are removed, and is checked before any of them is read. -/
def parse_family (version : Version) (values : Json) (count : ℕ) :
    Except Raised (List IPAddress × ℕ) :=
  match values with
  | .arr values =>
      if MAX_ADDRESSES < count + values.length then helper_error "too many addresses".toList
      else (values.mapM (parse_address version)).map (fun addresses =>
        (sorted_set addresses, count + values.length))
  | _ => helper_error "addresses must be arrays".toList

/-- `'ipv4'` and `'ipv6'` -/
def family_field : Version → Text
  | .four => "ipv4".toList
  | .six => "ipv6".toList

/-- `set(request) == {'op', 'ipv4', 'ipv6'} and request['op'] == 'replace'`. No other operation
exists, and a request with a further name is refused rather than read without it. -/
def is_replacement (items : List (Text × Json)) : Bool :=
  ["op".toList, "ipv4".toList, "ipv6".toList].all (fun name => (get_item items name).isSome) &&
    items.all (fun item => decide (item.1 ∈ ["op".toList, "ipv4".toList, "ipv6".toList])) &&
    match get_item items "op".toList with
    | some (.str op) => op = "replace".toList
    | _ => false

/-- A value for each of the two families. -/
structure Families (α : Type) where
  v4 : α
  v6 : α

def Families.get {α : Type} (f : Families α) : Version → α
  | .four => f.v4
  | .six => f.v6

def Families.map {α β : Type} (f : α → β) (x : Families α) : Families β := ⟨f x.v4, f x.v6⟩

@[simp] theorem Families.get_map {α β : Type} (f : α → β) (x : Families α) (version : Version) :
    (x.map f).get version = f (x.get version) := by
  cases version <;> rfl

def parse_request (request : Json) : Except Raised (Families (List IPAddress)) :=
  match request with
  | .obj items =>
      if is_replacement items then do
        let (v4, count) ← parse_family .four ((get_item items (family_field .four)).getD .null) 0
        let (v6, _) ← parse_family .six ((get_item items (family_field .six)).getD .null) count
        return ⟨v4, v6⟩
      else helper_error "only fixed-table replacement is supported".toList
  | _ => helper_error "only fixed-table replacement is supported".toList

/-! ## `pfctl`

The helper knows `pfctl` by its status and its output. Two commands are used: one prints the
entries of a table, one replaces them all. The second is atomic in the kernel, so a table is never
half replaced; but the two tables are replaced by two commands. -/

inductive Action
  | show
  | replace (stdin : Text)
  deriving DecidableEq

/-- How a call of `pfctl` ends: with status 0, with another one, or the runner raises, for
instance because the time limit passed. In the last two cases the table is as before. -/
inductive Outcome
  | succeeded
  | failed
  | raised
  deriving DecidableEq

/-- The tables, as `pfctl` shows them, and the commands issued so far. -/
structure PF where
  tables : Version → Text
  commands : List (Version × Action)

/-- What a command that succeeds does to the tables. -/
def PF.after (pf : PF) (version : Version) (action : Action) : Version → Text :=
  match action with
  | .show => pf.tables
  | .replace stdin => Function.update pf.tables version stdin

/-- What a command that succeeds prints. -/
def PF.stdout (pf : PF) (version : Version) : Action → Text
  | .show => pf.tables version
  | .replace _ => []

/-- `PFUpdater.command`. The outcomes are given for the calls in order, so that a statement for
every function `outcomes` is one for every pattern of failures. -/
def command (outcomes : ℕ → Outcome) (pf : PF) (version : Version) (action : Action) :
    Except Raised Text × PF :=
  let commands := pf.commands ++ [(version, action)]
  match outcomes pf.commands.length with
  | .succeeded => (.ok (pf.stdout version action), ⟨pf.after version action, commands⟩)
  | .failed => (helper_error "PF table operation failed".toList, ⟨pf.tables, commands⟩)
  | .raised => (.error .other, ⟨pf.tables, commands⟩)

/-! ## Entries of a table

What `show` printed is read back before anything is replaced, since a rollback has to restore it.
Only entries of one address are accepted: a network is nothing the helper has written. -/

/-- `network.prefixlen` -/
def prefixlen : IPNetwork → ℕ
  | .v4 net => net.prefixlen
  | .v6 net => net.prefixlen

/-- `network.prefixlen == network.max_prefixlen` -/
def is_host (network : IPNetwork) : Bool := prefixlen network = network.version.width

/-- `network.network_address` -/
def network_address : IPNetwork → IPAddress
  | .v4 net => .v4 ⟨net.network_address, net.network_address_lt⟩
  | .v6 net => .v6 ⟨net.network_address, net.network_address_lt⟩

/-- `str(network)` -/
def network_str (network : IPNetwork) : Text :=
  (network_address network).str ++ '/' :: to_dec (prefixlen network)

/-- The loop over the lines of a table. A line that is no network raises `ValueError`, which is
not a `HelperError`; empty lines are skipped. -/
def host_entries (version : Version) : List Text → Except Raised (List IPNetwork)
  | [] => .ok []
  | line :: lines =>
      if strip line = [] then host_entries version lines
      else
        match ip_network true (strip line) with
        | none => .error .other
        | some network =>
            if network.version ≠ version ∨ ¬ is_host network then
              helper_error "existing table contains a non-host entry".toList
            else (host_entries version lines).map (fun networks => network :: networks)

/-- The text `command` writes to the standard input of `pfctl`. -/
def stdin_of {α : Type} (str : α → Text) (values : List α) : Text :=
  values.flatMap (fun value => str value ++ ['\n'])

/-! ## `PFUpdater.replace`

Everything that can be refused is refused before the first replacement. From then on there are
three ways to end: both tables are replaced, the rollback set both tables to what was read, or the
rollback failed too and the tables are unknown. -/

/-- The answer to a replacement that was carried out. -/
structure Applied where
  applied_ipv4 : ℕ
  applied_ipv6 : ℕ
  digest : Text
  deriving DecidableEq

/-- Reading one table. It fails with the error of the command, or of the entries. -/
def read_table (outcomes : ℕ → Outcome) (pf : PF) (version : Version) :
    Except Raised (List IPNetwork) × PF :=
  match command outcomes pf version .show with
  | (.error e, pf) => (.error e, pf)
  | (.ok stdout, pf) => (host_entries version (splitlines stdout), pf)

/-- Replacing both tables, IPv4 first; the second call is made when the first succeeds. -/
def replace_tables (outcomes : ℕ → Outcome) (pf : PF) (stdin : Families Text) :
    Except Raised Unit × PF :=
  match command outcomes pf .four (.replace stdin.v4) with
  | (.error e, pf) => (.error e, pf)
  | (.ok _, pf) =>
      match command outcomes pf .six (.replace stdin.v6) with
      | (.error e, pf) => (.error e, pf)
      | (.ok _, pf) => (.ok (), pf)

/-- The rollback makes both calls and remembers whether one failed. Both tables are set, also when
it was the first replacement that failed and the second table was never touched. -/
def roll_back (outcomes : ℕ → Outcome) (pf : PF) (stdin : Families Text) : Bool × PF :=
  let (first, pf) := command outcomes pf .four (.replace stdin.v4)
  let (second, pf) := command outcomes pf .six (.replace stdin.v6)
  ((match first with | .error _ => true | .ok _ => false) ||
    (match second with | .error _ => true | .ok _ => false), pf)

def rollback_completed : Raised :=
  .helper_error "PF replacement failed; rollback completed".toList

def rollback_failed : Raised := .helper_error "PF replacement failed; rollback failed".toList

/-- The addresses to be set, and the old entries that may be restored. -/
def effective (whitelist : NetworkIndex) (addresses : List IPAddress) : List IPAddress :=
  addresses.filter (fun a => ¬ whitelist.contains a)

def safe (whitelist : NetworkIndex) (previous : List IPNetwork) : List IPNetwork :=
  previous.filter (fun n => ¬ whitelist.contains (network_address n))

def applied (sha256 : Text → Text) (addresses : Families (List IPAddress)) : Applied where
  applied_ipv4 := addresses.v4.length
  applied_ipv6 := addresses.v6.length
  digest := sha256 (join '\n' ((addresses.v4 ++ addresses.v6).map IPAddress.str))

/-- The part of `replace` after the whitelist was read. Both tables are read first, and a failure
there ends it with nothing replaced. When a replacement fails, what was read is restored without
what is whitelisted now: an address that was put on the whitelist since does not come back by a
rollback. -/
def replace_with (sha256 : Text → Text) (outcomes : ℕ → Outcome) (whitelist : NetworkIndex)
    (requested : Families (List IPAddress)) (pf : PF) : Except Raised Applied × PF :=
  let addresses := requested.map (effective whitelist)
  match read_table outcomes pf .four with
  | (.error e, pf) => (.error e, pf)
  | (.ok previous4, pf) =>
      match read_table outcomes pf .six with
      | (.error e, pf) => (.error e, pf)
      | (.ok previous6, pf) =>
          match replace_tables outcomes pf (addresses.map (stdin_of IPAddress.str)) with
          | (.ok _, pf) => (.ok (applied sha256 addresses), pf)
          | (.error _, pf) =>
              let (failed, pf) := roll_back outcomes pf ((Families.mk previous4 previous6).map
                (fun previous => stdin_of network_str (safe whitelist previous)))
              (.error (if failed then rollback_failed else rollback_completed), pf)

/-- The networks of the whitelist file. -/
def read_whitelist (file : Except ReadFailure Text) : Except Raised (List IPNetwork) :=
  (secure_read file).bind helper_parse_whitelist

/-- `PFUpdater.replace`. A request or a whitelist that is refused costs no command at all. -/
def replace (sha256 : Text → Text) (outcomes : ℕ → Outcome) (file : Except ReadFailure Text)
    (request : Json) (pf : PF) : Except Raised Applied × PF :=
  match parse_request request with
  | .error e => (.error e, pf)
  | .ok requested =>
      match read_whitelist file with
      | .error e => (.error e, pf)
      | .ok networks =>
          replace_with sha256 outcomes (NetworkIndex.of_networks networks) requested pf

/-! ## Texts of addresses and networks

Tables are compared as sets of addresses, but they are written and shown as texts. An address and
the network of that address alone print differently and are read as the same entry. -/

/-- The network of one address. -/
def host : IPAddress → IPNetwork
  | .v4 ip => .v4 ⟨ip.val, 32, le_rfl, ip.isLt, by simp⟩
  | .v6 ip => .v6 ⟨ip.val, 128, le_rfl, ip.isLt, by simp⟩

@[simp] theorem network_address_host (a : IPAddress) : network_address (host a) = a := by
  cases a <;> rfl

@[simp] theorem host_version (a : IPAddress) : (host a).version = a.version := by
  cases a <;> rfl

theorem host_contains (a b : IPAddress) : (host a).Contains b ↔ b = a := by
  rw [IPNetwork.contains_iff, IPAddress.ext_iff, host_version]
  cases a with
  | v4 ip =>
    simp only [host, IPNetwork.first, IPNetwork.last, Net.broadcast_address, Net.num_addresses,
      IPAddress.toNat]
    constructor <;> rintro ⟨h1, h2⟩ <;> exact ⟨h1.symm, by omega⟩
  | v6 ip =>
    simp only [host, IPNetwork.first, IPNetwork.last, Net.broadcast_address, Net.num_addresses,
      IPAddress.toNat]
    constructor <;> rintro ⟨h1, h2⟩ <;> exact ⟨h1.symm, by omega⟩

/-- A network with the longest prefix is that of its address. -/
theorem eq_host_of_is_host {n : IPNetwork} (h : is_host n = true) : n = host (network_address n) := by
  cases n with
  | v4 net =>
    obtain ⟨network_address, prefixlen, hle, hlt, hbits⟩ := net
    have hlen : prefixlen = 32 := of_decide_eq_true h
    subst hlen
    rfl
  | v6 net =>
    obtain ⟨network_address, prefixlen, hle, hlt, hbits⟩ := net
    have hlen : prefixlen = 128 := of_decide_eq_true h
    subst hlen
    rfl

theorem make_host {w : ℕ} (strict : Bool) (ip : Fin (2 ^ w)) :
    Net.make strict ip w = some ⟨ip.val, w, le_rfl, ip.isLt, by simp⟩ := by
  unfold Net.make
  simp [Nat.mod_one]

theorem slash_not_mem (a : IPAddress) : '/' ∉ a.str :=
  IPAddress.not_mem_str (by decide) (by decide) (by decide)

theorem ip_network_str (strict : Bool) (a : IPAddress) : ip_network strict a.str = some (host a) := by
  unfold ip_network
  rw [if_neg (not_percent_mem_str a), split_of_not_mem (slash_not_mem a)]
  cases a with
  | v4 ip =>
    simp only [IPAddress.str, ipv4_address_str, make_host]
    rfl
  | v6 ip =>
    simp only [IPAddress.str, ipv4_address_ipv6_str, ipv6_address_str, Option.bind_some, make_host]
    rfl

theorem ip_network_host_str (strict : Bool) (a : IPAddress) :
    ip_network strict (network_str (host a)) = some (host a) := by
  have hsplit : ∀ mask : Text, '/' ∉ mask → split '/' (a.str ++ '/' :: mask) = [a.str, mask] := by
    intro mask hmask
    have hjoin : join '/' [a.str, mask] = a.str ++ '/' :: mask := by
      rw [join_cons_cons]
      simp [join]
    rw [← hjoin]
    refine split_join (by simp) ?_
    intro part hpart
    rcases List.mem_cons.mp hpart with rfl | hpart
    · exact slash_not_mem a
    · rwa [List.mem_singleton.mp hpart]
  have hpercent : ∀ mask : Text, '%' ∉ mask → '%' ∉ a.str ++ '/' :: mask := by
    intro mask hmask hmem
    rw [List.mem_append, List.mem_cons] at hmem
    rcases hmem with h | h | h
    · exact not_percent_mem_str a h
    · exact absurd h (by decide)
    · exact hmask h
  unfold ip_network network_str
  rw [network_address_host]
  cases a with
  | v4 ip =>
    rw [show to_dec (prefixlen (host (.v4 ip))) = "32".toList from
      show to_dec 32 = _ by decide, if_neg (hpercent _ (by decide)), hsplit _ (by decide)]
    simp only [IPAddress.str, ipv4_address_str]
    rw [show ipv4_make_netmask "32".toList = some 32 by decide, Option.bind_some, make_host]
    rfl
  | v6 ip =>
    rw [show to_dec (prefixlen (host (.v6 ip))) = "128".toList from
      show to_dec 128 = _ by decide, if_neg (hpercent _ (by decide)), hsplit _ (by decide)]
    simp only [IPAddress.str, ipv4_address_ipv6_str, ipv6_address_str, Option.bind_some]
    rw [show prefix_from_prefix_string 128 "128".toList = some 128 by decide, Option.bind_some,
      make_host]
    rfl

/-! ## What a table holds

`InTable` reads a table the way `host_entries` does, line by line. Both kinds of text the helper
writes, addresses and networks, are read back as what they stand for (`inTable_stdin`). -/

/-- The table has an entry that the address belongs to. -/
def InTable (table : Text) (a : IPAddress) : Prop :=
  ∃ line ∈ splitlines table, ∃ n, ip_network true (strip line) = some n ∧ n.Contains a

theorem plain_of_entry {c : Char} (h : c = '.' ∨ c = ':' ∨ c = '/' ∨ is_hex_lower c = true) :
    is_space c = false ∧ is_line_end c = false := by
  rcases h with rfl | rfl | rfl | h
  · decide
  · decide
  · decide
  · have hrange : (48 ≤ c.toNat ∧ c.toNat ≤ 57) ∨ (97 ≤ c.toNat ∧ c.toNat ≤ 102) := by
      unfold is_hex_lower is_digit at h
      rw [Bool.or_eq_true, Bool.and_eq_true, Bool.and_eq_true, decide_eq_true_eq, decide_eq_true_eq,
        decide_eq_true_eq, decide_eq_true_eq] at h
      exact h
    constructor
    · simp only [is_space]
      rw [Bool.eq_false_iff]
      simp only [ne_eq, Bool.or_eq_true, Bool.and_eq_true, decide_eq_true_eq, beq_iff_eq]
      omega
    · simp only [is_line_end]
      rw [Bool.eq_false_iff]
      simp only [ne_eq, Bool.or_eq_true, Bool.and_eq_true, decide_eq_true_eq, beq_iff_eq]
      omega

theorem mem_network_str {n : IPNetwork} {c : Char} (hc : c ∈ network_str n) :
    c = '.' ∨ c = ':' ∨ c = '/' ∨ is_hex_lower c = true := by
  rcases List.mem_append.mp hc with hc | hc
  · have := IPAddress.mem_str hc
    tauto
  · rcases List.mem_cons.mp hc with hc | hc
    · exact Or.inr (Or.inr (Or.inl hc))
    · have := mem_to_dec hc
      exact Or.inr (Or.inr (Or.inr (by rw [is_hex_lower, this]; rfl)))

/-- A table that was written holds what its lines say. -/
theorem inTable_stdin {α : Type} {str : α → Text} {values : List α} {network : α → IPNetwork}
    (hplain : ∀ x ∈ values, ∀ c ∈ str x, c = '.' ∨ c = ':' ∨ c = '/' ∨ is_hex_lower c = true)
    (hparse : ∀ x ∈ values, ip_network true (str x) = some (network x)) (a : IPAddress) :
    InTable (stdin_of str values) a ↔ ∃ x ∈ values, (network x).Contains a := by
  have hlines : splitlines (stdin_of str values) = values.map str := by
    have h := splitlines_lines (values.map str) (by
      intro line hline c hc
      obtain ⟨x, hx, rfl⟩ := List.mem_map.mp hline
      exact (plain_of_entry (hplain x hx c hc)).2)
    rwa [List.flatMap_map] at h
  have hstrip : ∀ x ∈ values, strip (str x) = str x :=
    fun x hx => strip_of_no_space (fun c hc => (plain_of_entry (hplain x hx c hc)).1)
  rw [InTable, hlines]
  constructor
  · rintro ⟨line, hline, n, hn, hcontains⟩
    obtain ⟨x, hx, rfl⟩ := List.mem_map.mp hline
    rw [hstrip x hx, hparse x hx] at hn
    cases hn
    exact ⟨x, hx, hcontains⟩
  · rintro ⟨x, hx, hcontains⟩
    exact ⟨str x, List.mem_map_of_mem hx, network x, by rw [hstrip x hx, hparse x hx], hcontains⟩

theorem inTable_addresses (addresses : List IPAddress) (a : IPAddress) :
    InTable (stdin_of IPAddress.str addresses) a ↔ a ∈ addresses := by
  rw [@inTable_stdin _ _ _ host ?_ (fun x _ => ip_network_str true x)]
  · simp only [host_contains, exists_eq_right']
  · intro x _ c hc
    have := IPAddress.mem_str hc
    tauto

theorem inTable_networks {networks : List IPNetwork} (h : ∀ n ∈ networks, is_host n = true)
    (a : IPAddress) :
    InTable (stdin_of network_str networks) a ↔ ∃ n ∈ networks, network_address n = a := by
  rw [@inTable_stdin _ _ _ id (fun x _ c hc => mem_network_str hc) ?_]
  · constructor
    · rintro ⟨n, hn, hcontains⟩
      refine ⟨n, hn, ?_⟩
      rw [id, eq_host_of_is_host (h n hn), host_contains] at hcontains
      exact hcontains.symm
    · rintro ⟨n, hn, rfl⟩
      refine ⟨n, hn, ?_⟩
      rw [id]
      conv_lhs => rw [eq_host_of_is_host (h n hn)]
      rw [host_contains]
  · intro n hn
    conv_lhs => rw [eq_host_of_is_host (h n hn)]
    rw [ip_network_host_str, id, ← eq_host_of_is_host (h n hn)]

/-- What was read from a table of hosts is what the table holds. -/
theorem host_entries_spec {version : Version} {lines : List Text} : ∀ {networks : List IPNetwork},
    host_entries version lines = .ok networks →
      (∀ n ∈ networks, is_host n = true) ∧
        ∀ n, n ∈ networks ↔ ∃ line ∈ lines, ip_network true (strip line) = some n := by
  induction lines with
  | nil =>
    intro networks h
    cases h
    exact ⟨fun n hn => (by cases hn), fun n => by simp⟩
  | cons line lines ih =>
    intro networks h
    rw [host_entries] at h
    split at h
    · -- a blank line is passed over
      rename_i hempty
      obtain ⟨hhosts, hmem⟩ := ih h
      refine ⟨hhosts, fun n => ?_⟩
      rw [hmem n, List.exists_mem_cons_iff, hempty]
      have hnone : ip_network true [] = none := by decide
      rw [hnone]
      simp
    · split at h
      · cases h
      · rename_i network hnetwork
        split at h
        · cases h
        · rename_i hhost
          rw [not_or, not_not, not_not] at hhost
          cases hrest : host_entries version lines with
          | error e =>
            rw [hrest] at h
            cases h
          | ok rest =>
            rw [hrest] at h
            cases h
            obtain ⟨hhosts, hmem⟩ := ih hrest
            refine ⟨List.forall_mem_cons.mpr ⟨hhost.2, hhosts⟩, fun n => ?_⟩
            rw [List.mem_cons, hmem n, List.exists_mem_cons_iff, hnetwork, Option.some_inj, eq_comm]

theorem inTable_of_host_entries {version : Version} {table : Text} {networks : List IPNetwork}
    (h : host_entries version (splitlines table) = .ok networks) (a : IPAddress) :
    InTable table a ↔ ∃ n ∈ networks, network_address n = a := by
  obtain ⟨hhosts, hmem⟩ := host_entries_spec h
  constructor
  · rintro ⟨line, hline, n, hn, hcontains⟩
    have hin := (hmem n).mpr ⟨line, hline, hn⟩
    rw [eq_host_of_is_host (hhosts n hin), host_contains] at hcontains
    exact ⟨n, hin, hcontains.symm⟩
  · rintro ⟨n, hin, rfl⟩
    obtain ⟨line, hline, hn⟩ := (hmem n).mp hin
    refine ⟨line, hline, n, hn, ?_⟩
    conv_lhs => rw [eq_host_of_is_host (hhosts n hin)]
    rw [host_contains]

/-! ## Errors before the first replacement

`Early` errors are those that say nothing was replaced. That the two errors of a failed
replacement are not among them is what lets a reader of the answer tell the cases apart. -/

/-- What `handle` says about an exception: neither paths nor the messages of others. -/
def error_message : Raised → Text
  | .helper_error message => message
  | .other => "invalid request or enforcement failure".toList

/-- The exception is not one of those `replace` raises after a replacement has failed, and its
message is plain. -/
def Early (e : Raised) : Prop :=
  e ≠ rollback_completed ∧ e ≠ rollback_failed ∧ PlainText (error_message e)

instance (e : Raised) : Decidable (Early e) :=
  inferInstanceAs (Decidable (e ≠ rollback_completed ∧ e ≠ rollback_failed ∧
    PlainText (error_message e)))

theorem mapM_error {α β ε : Type} {f : α → Except ε β} {e : ε} : ∀ {xs : List α},
    xs.mapM f = .error e → ∃ x ∈ xs, f x = .error e := by
  intro xs
  induction xs with
  | nil => intro h; cases h
  | cons x xs ih =>
    intro h
    rw [List.mapM_cons] at h
    cases hx : f x with
    | error e' =>
      rw [hx] at h
      cases h
      exact ⟨x, List.mem_cons_self, hx⟩
    | ok y =>
      rw [hx] at h
      cases hxs : xs.mapM f with
      | error e' =>
        rw [hxs] at h
        cases h
        obtain ⟨x', hx', herror⟩ := ih hxs
        exact ⟨x', List.mem_cons_of_mem _ hx', herror⟩
      | ok ys =>
        rw [hxs] at h
        cases h

theorem parse_address_early {version : Version} {value : Json} {e : Raised}
    (h : parse_address version value = .error e) : Early e := by
  unfold parse_address helper_error at h
  split at h
  · split at h
    · cases h
      decide +kernel
    · split at h
      · cases h
        decide +kernel
      · split at h
        · cases h
          decide +kernel
        · split at h
          · cases h
            decide +kernel
          · cases h
  · cases h
    decide +kernel

theorem parse_family_early {version : Version} {values : Json} {count : ℕ} {e : Raised}
    (h : parse_family version values count = .error e) : Early e := by
  unfold parse_family helper_error at h
  split at h
  · rename_i values
    split at h
    · cases h
      decide +kernel
    · cases hmap : values.mapM (parse_address version) with
      | error e' =>
        rw [hmap] at h
        cases h
        obtain ⟨x, -, hx⟩ := mapM_error hmap
        exact parse_address_early hx
      | ok addresses =>
        rw [hmap] at h
        cases h
  · cases h
    decide +kernel

theorem parse_request_early {request : Json} {e : Raised} (h : parse_request request = .error e) :
    Early e := by
  unfold parse_request helper_error at h
  split at h
  · split at h
    · rename_i items _
      cases h4 : parse_family .four ((get_item items (family_field .four)).getD .null) 0 with
      | error e' =>
        rw [h4] at h
        cases h
        exact parse_family_early h4
      | ok r4 =>
        rw [h4] at h
        dsimp only [bind, Except.bind] at h
        cases h6 : parse_family .six ((get_item items (family_field .six)).getD .null) r4.2 with
        | error e' =>
          rw [h6] at h
          cases h
          exact parse_family_early h6
        | ok r6 =>
          rw [h6] at h
          cases h
    · cases h
      decide +kernel
  · cases h
    decide +kernel

theorem parse_lines_early {lines : List Text} {e : Raised} : ∀ {found : List IPNetwork},
    parse_lines helper_errors found lines = .error e → Early e := by
  induction lines with
  | nil => intro found h; cases h
  | cons line lines ih =>
    intro found h
    rw [parse_lines] at h
    split at h
    · exact ih h
    · split at h
      · cases h
        decide +kernel
      · split at h
        · cases h
          decide +kernel
        · split at h
          · cases h
            decide +kernel
          · exact ih h

theorem read_whitelist_early {file : Except ReadFailure Text} {e : Raised}
    (h : read_whitelist file = .error e) : Early e := by
  unfold read_whitelist at h
  cases hread : secure_read file with
  | error e' =>
    rw [hread] at h
    cases h
    unfold secure_read at hread
    split at hread
    · rename_i failure
      cases hread
      cases failure <;> decide +kernel
    · split at hread
      · cases hread
      · cases hread
        decide +kernel
  | ok text =>
    rw [hread] at h
    exact parse_lines_early h

theorem host_entries_early {version : Version} {lines : List Text} {e : Raised}
    (h : host_entries version lines = .error e) : Early e := by
  induction lines with
  | nil => cases h
  | cons line lines ih =>
    rw [host_entries] at h
    split at h
    · exact ih h
    · split at h
      · cases h
        decide +kernel
      · split at h
        · cases h
          decide +kernel
        · cases hrest : host_entries version lines with
          | error e' =>
            rw [hrest] at h
            cases h
            exact ih hrest
          | ok rest =>
            rw [hrest] at h
            cases h

/-! ## Commands

What one command can do, and from it what reading and rolling back can do. Nothing below looks
into `command` again. -/

section Commands

variable {outcomes : ℕ → Outcome}

/-- A call succeeds and has its effect, or it fails and has none. -/
theorem command_spec {pf pf' : PF} {version : Version} {action : Action} {r : Except Raised Text}
    (h : command outcomes pf version action = (r, pf')) :
    pf'.commands = pf.commands ++ [(version, action)] ∧
      ((r = .ok (pf.stdout version action) ∧ pf'.tables = pf.after version action) ∨
        ∃ e, r = .error e ∧ Early e ∧ pf'.tables = pf.tables) := by
  unfold command helper_error at h
  dsimp only at h
  split at h
  · obtain ⟨rfl, rfl⟩ := Prod.mk.inj h
    exact ⟨rfl, Or.inl ⟨rfl, rfl⟩⟩
  · obtain ⟨rfl, rfl⟩ := Prod.mk.inj h
    exact ⟨rfl, Or.inr ⟨_, rfl, by decide +kernel, rfl⟩⟩
  · obtain ⟨rfl, rfl⟩ := Prod.mk.inj h
    exact ⟨rfl, Or.inr ⟨_, rfl, by decide +kernel, rfl⟩⟩

/-- No table was touched: only `show` commands were issued since. -/
structure Untouched (pf pf' : PF) : Prop where
  tables : pf'.tables = pf.tables
  commands : ∃ issued : List (Version × Action), pf'.commands = pf.commands ++ issued ∧
    ∀ c ∈ issued, c.2 = .show

theorem Untouched.refl (pf : PF) : Untouched pf pf := ⟨rfl, [], by simp⟩

theorem Untouched.trans {pf pf' pf'' : PF} (h : Untouched pf pf') (h' : Untouched pf' pf'') :
    Untouched pf pf'' := by
  obtain ⟨htables, issued, hcommands, hshow⟩ := h
  obtain ⟨htables', issued', hcommands', hshow'⟩ := h'
  refine ⟨htables'.trans htables, issued ++ issued', ?_, ?_⟩
  · rw [hcommands', hcommands, List.append_assoc]
  · exact List.forall_mem_append.mpr ⟨hshow, hshow'⟩

theorem read_table_spec {pf pf' : PF} {version : Version} {r : Except Raised (List IPNetwork)}
    (h : read_table outcomes pf version = (r, pf')) :
    Untouched pf pf' ∧ (∀ e, r = .error e → Early e) ∧
      ∀ networks, r = .ok networks →
        host_entries version (splitlines (pf.tables version)) = .ok networks := by
  unfold read_table at h
  rcases hcommand : command outcomes pf version .show with ⟨result, pf1⟩
  rw [hcommand] at h
  obtain ⟨hcommands, ⟨rfl, htables⟩ | ⟨e, rfl, hearly, htables⟩⟩ := command_spec hcommand
  · obtain ⟨rfl, rfl⟩ := Prod.mk.inj h
    refine ⟨⟨htables, [(version, .show)], hcommands, by simp⟩, ?_, fun networks hok => hok⟩
    intro e he
    exact host_entries_early he
  · obtain ⟨rfl, rfl⟩ := Prod.mk.inj h
    refine ⟨⟨htables, [(version, .show)], hcommands, by simp⟩, ?_, fun networks hok => (by cases hok)⟩
    intro e' he'
    cases he'
    exact hearly

/-- The tables hold the given texts. -/
def Set (pf : PF) (stdin : Families Text) : Prop := ∀ version, pf.tables version = stdin.get version

theorem replace_tables_spec {pf pf' : PF} {stdin : Families Text} {r : Except Raised Unit}
    (h : replace_tables outcomes pf stdin = (r, pf')) : (∀ u, r = .ok u → Set pf' stdin) := by
  unfold replace_tables at h
  rcases h4 : command outcomes pf .four (.replace stdin.v4) with ⟨r4, pf4⟩
  rw [h4] at h
  obtain ⟨-, ⟨rfl, htables4⟩ | ⟨e, rfl, -, -⟩⟩ := command_spec h4
  · dsimp only at h
    rcases h6 : command outcomes pf4 .six (.replace stdin.v6) with ⟨r6, pf6⟩
    rw [h6] at h
    obtain ⟨-, ⟨rfl, htables6⟩ | ⟨e, rfl, -, -⟩⟩ := command_spec h6
    · obtain ⟨rfl, rfl⟩ := Prod.mk.inj h
      intro u _ version
      rw [htables6]
      cases version with
      | four => rw [PF.after, htables4]; rfl
      | six => rfl
    · obtain ⟨rfl, rfl⟩ := Prod.mk.inj h
      intro u hu
      cases hu
  · obtain ⟨rfl, rfl⟩ := Prod.mk.inj h
    intro u hu
    cases hu

/-- A rollback in which no call failed has set both tables. -/
theorem roll_back_spec {pf pf' : PF} {stdin : Families Text} {failed : Bool}
    (h : roll_back outcomes pf stdin = (failed, pf')) (hfailed : failed = false) :
    Set pf' stdin := by
  unfold roll_back at h
  rcases h4 : command outcomes pf .four (.replace stdin.v4) with ⟨r4, pf4⟩
  rw [h4] at h
  dsimp only at h
  rcases h6 : command outcomes pf4 .six (.replace stdin.v6) with ⟨r6, pf6⟩
  rw [h6] at h
  obtain ⟨rfl, rfl⟩ := Prod.mk.inj h
  rw [Bool.or_eq_false_iff] at hfailed
  obtain ⟨-, ⟨rfl, htables4⟩ | ⟨e, rfl, -, -⟩⟩ := command_spec h4
  · obtain ⟨-, ⟨rfl, htables6⟩ | ⟨e, rfl, -, -⟩⟩ := command_spec h6
    · intro version
      rw [htables6]
      cases version with
      | four => rw [PF.after, htables4]; rfl
      | six => rfl
    · cases hfailed.2
  · cases hfailed.1

end Commands

/-! ## The result of a replacement

`Ended` names the four ways `replace` can end, each with what the tables hold then. The main
result is read off its cases. -/

/-- The address is whitelisted. -/
def Covered (networks : List IPNetwork) (a : IPAddress) : Prop := ∃ n ∈ networks, n.Contains a

theorem mem_effective {networks : List IPNetwork} {addresses : List IPAddress} {a : IPAddress} :
    a ∈ effective (NetworkIndex.of_networks networks) addresses ↔
      a ∈ addresses ∧ ¬ Covered networks a := by
  rw [effective, List.mem_filter, decide_eq_true_eq, contains_iff, Covered]

/-- A failing `show`, or a table with an entry that is no host. -/
def Unreadable (outcomes : ℕ → Outcome) (pf : PF) : Prop :=
  (∃ e, (read_table outcomes pf .four).1 = .error e) ∨
    ∃ e, (read_table outcomes (read_table outcomes pf .four).2 .six).1 = .error e

/-- How `replace` ends. The four cases exclude each other, as the third and the fourth carry
different errors and the first an early one. -/
inductive Ended (sha256 : Text → Text) (outcomes : ℕ → Outcome) (file : Except ReadFailure Text)
    (request : Json) (pf : PF) : Except Raised Applied → PF → Prop
  /-- nothing was replaced -/
  | refused {e : Raised} {pf' : PF}
      (hcause : parse_request request = .error e ∨ read_whitelist file = .error e ∨
        Unreadable outcomes pf)
      (hearly : Early e) (h : Untouched pf pf') : Ended sha256 outcomes file request pf (.error e) pf'
  | done {requested : Families (List IPAddress)} {networks : List IPNetwork} {pf' : PF}
      (hrequest : parse_request request = .ok requested) (hfile : read_whitelist file = .ok networks)
      (hread : ¬ Unreadable outcomes pf)
      (h : Set pf' ((requested.map (effective (NetworkIndex.of_networks networks))).map
        (stdin_of IPAddress.str))) :
      Ended sha256 outcomes file request pf
        (.ok (applied sha256 (requested.map (effective (NetworkIndex.of_networks networks))))) pf'
  | rolled_back {requested : Families (List IPAddress)} {networks : List IPNetwork} {pf' : PF}
      (hrequest : parse_request request = .ok requested) (hfile : read_whitelist file = .ok networks)
      (hread : ¬ Unreadable outcomes pf)
      (h : ∀ version a, InTable (pf'.tables version) a ↔
        InTable (pf.tables version) a ∧ ¬ Covered networks a) :
      Ended sha256 outcomes file request pf (.error rollback_completed) pf'
  | lost {requested : Families (List IPAddress)} {networks : List IPNetwork} {pf' : PF}
      (hrequest : parse_request request = .ok requested) (hfile : read_whitelist file = .ok networks)
      (hread : ¬ Unreadable outcomes pf) :
      Ended sha256 outcomes file request pf (.error rollback_failed) pf'

theorem replace_ended {sha256 : Text → Text} {outcomes : ℕ → Outcome} {file : Except ReadFailure Text}
    {request : Json} {pf pf' : PF} {result : Except Raised Applied}
    (h : replace sha256 outcomes file request pf = (result, pf')) :
    Ended sha256 outcomes file request pf result pf' := by
  -- each stage may end the call; the tables are touched in the last two only
  unfold replace at h
  cases hrequest : parse_request request with
  | error e =>
    rw [hrequest] at h
    obtain ⟨rfl, rfl⟩ := Prod.mk.inj h
    exact Ended.refused (Or.inl hrequest) (parse_request_early hrequest) (Untouched.refl pf)
  | ok requested =>
  rw [hrequest] at h
  dsimp only at h
  cases hfile : read_whitelist file with
  | error e =>
    rw [hfile] at h
    obtain ⟨rfl, rfl⟩ := Prod.mk.inj h
    exact Ended.refused (Or.inr (Or.inl hfile)) (read_whitelist_early hfile) (Untouched.refl pf)
  | ok networks =>
  rw [hfile] at h
  dsimp only at h
  unfold replace_with at h
  rcases h4 : read_table outcomes pf .four with ⟨r4, pf4⟩
  obtain ⟨hsame4, hearly4, hentries4⟩ := read_table_spec h4
  rw [h4] at h
  cases r4 with
  | error e =>
    obtain ⟨rfl, rfl⟩ := Prod.mk.inj h
    exact Ended.refused (Or.inr (Or.inr (Or.inl ⟨e, by rw [h4]⟩))) (hearly4 e rfl) hsame4
  | ok previous4 =>
  dsimp only at h
  rcases h6 : read_table outcomes pf4 .six with ⟨r6, pf6⟩
  obtain ⟨hsame6, hearly6, hentries6⟩ := read_table_spec h6
  rw [h6] at h
  cases r6 with
  | error e =>
    obtain ⟨rfl, rfl⟩ := Prod.mk.inj h
    refine Ended.refused (Or.inr (Or.inr (Or.inr ⟨e, ?_⟩))) (hearly6 e rfl) (hsame4.trans hsame6)
    rw [h4, h6]
  | ok previous6 =>
  -- both tables were read
  have hread : ¬ Unreadable outcomes pf := by
    rw [Unreadable, h4, h6]
    rintro (⟨e, he⟩ | ⟨e, he⟩) <;> cases he
  dsimp only at h
  rcases hreplace : replace_tables outcomes pf6 ((requested.map
    (effective (NetworkIndex.of_networks networks))).map (stdin_of IPAddress.str)) with ⟨r, pf7⟩
  rw [hreplace] at h
  cases r with
  | ok u =>
    obtain ⟨rfl, rfl⟩ := Prod.mk.inj h
    have hset := replace_tables_spec hreplace u rfl
    exact Ended.done hrequest hfile hread hset
  -- a table could not be replaced, so both are rolled back
  | error e =>
    dsimp only at h
    rcases hroll : roll_back outcomes pf7 ((Families.mk previous4 previous6).map
      (fun previous => stdin_of network_str (safe (NetworkIndex.of_networks networks) previous)))
      with ⟨failed, pf8⟩
    rw [hroll] at h
    obtain ⟨rfl, rfl⟩ := Prod.mk.inj h
    cases failed with
    | true => exact Ended.lost hrequest hfile hread
    | false =>
      have hset := roll_back_spec hroll rfl
      refine Ended.rolled_back hrequest hfile hread (fun version a => ?_)
      -- what was read is what the tables held
      have hentries : host_entries version (splitlines (pf.tables version)) =
          .ok ((Families.mk previous4 previous6).get version) := by
        cases version with
        | four => exact hentries4 previous4 rfl
        | six =>
          rw [← hsame4.tables]
          exact hentries6 previous6 rfl
      have hhosts := (host_entries_spec hentries).1
      rw [hset version, Families.get_map, inTable_networks, inTable_of_host_entries hentries]
      · simp only [safe, List.mem_filter, decide_eq_true_eq, contains_iff, Covered]
        constructor
        · rintro ⟨n, ⟨hn, hcovered⟩, rfl⟩
          exact ⟨⟨n, hn, rfl⟩, hcovered⟩
        · rintro ⟨⟨n, hn, rfl⟩, hcovered⟩
          exact ⟨n, ⟨hn, hcovered⟩, rfl⟩
      · intro n hn
        exact hhosts n (List.mem_filter.mp hn).1

/-- The causes a replacement is refused for, none of which is left once the tables were read. -/
theorem no_cause {outcomes : ℕ → Outcome} {file : Except ReadFailure Text} {request : Json} {pf : PF}
    {requested : Families (List IPAddress)} {networks : List IPNetwork}
    (hrequest : parse_request request = .ok requested) (hfile : read_whitelist file = .ok networks)
    (hread : ¬ Unreadable outcomes pf) :
    ¬ ((∃ e, parse_request request = .error e) ∨ (∃ e, read_whitelist file = .error e) ∨
      Unreadable outcomes pf) := by
  rintro (⟨e, he⟩ | ⟨e, he⟩ | hcause)
  · rw [hrequest] at he
    cases he
  · rw [hfile] at he
    cases he
  · exact hread hcause

/-- **What a replacement leaves.** For every request, whitelist file, tables and pattern of
outcomes. When `replace` returns, each table holds exactly the requested addresses that are not
whitelisted. When it raises because of the request, the whitelist, a failing `show` or an entry
that is no host, only `show` commands were issued and the tables are as before; it raises nothing
else but the two errors of a failed replacement. When the rollback completed, each table holds
what it held before without what is whitelisted now. In the first and the last case no table holds
a whitelisted address. -/
theorem replace_spec (sha256 : Text → Text) (outcomes : ℕ → Outcome) (file : Except ReadFailure Text)
    (request : Json) (pf pf' : PF) (result : Except Raised Applied)
    (h : replace sha256 outcomes file request pf = (result, pf')) :
    (∀ r, result = .ok r → ∃ requested networks, parse_request request = .ok requested ∧
      read_whitelist file = .ok networks ∧ ∀ version a, InTable (pf'.tables version) a ↔
        a ∈ requested.get version ∧ ¬ Covered networks a) ∧
    ((∃ e, parse_request request = .error e) ∨ (∃ e, read_whitelist file = .error e) ∨
        Unreadable outcomes pf ↔
      ∃ e, result = .error e ∧ e ≠ rollback_completed ∧ e ≠ rollback_failed) ∧
    (∀ e, result = .error e → e ≠ rollback_completed → e ≠ rollback_failed →
      pf'.tables = pf.tables ∧ ∃ issued, pf'.commands = pf.commands ++ issued ∧
        ∀ c ∈ issued, c.2 = .show) ∧
    (result = .error rollback_completed → ∃ networks, read_whitelist file = .ok networks ∧
      ∀ version a, InTable (pf'.tables version) a ↔
        InTable (pf.tables version) a ∧ ¬ Covered networks a) ∧
    ((∃ r, result = .ok r) ∨ result = .error rollback_completed → ∀ networks,
      read_whitelist file = .ok networks → ∀ version a, InTable (pf'.tables version) a →
        ¬ Covered networks a) := by
  -- one case for each way the call can end
  cases replace_ended h with
  | refused hcause hearly hsame =>
    refine ⟨fun r hr => (by cases hr), ⟨fun _ => ⟨_, rfl, hearly.1, hearly.2.1⟩, fun _ => ?_⟩,
      fun e he _ _ => ⟨hsame.tables, hsame.commands⟩, fun hr => ?_, ?_⟩
    · rcases hcause with hcause | hcause | hcause
      · exact Or.inl ⟨_, hcause⟩
      · exact Or.inr (Or.inl ⟨_, hcause⟩)
      · exact Or.inr (Or.inr hcause)
    · cases hr
      exact absurd rfl hearly.1
    · rintro (⟨r, hr⟩ | hr)
      · cases hr
      · cases hr
        exact absurd rfl hearly.1
  | @done requested networks pf' hrequest hfile hread hset =>
    have htables : ∀ version a, InTable (pf'.tables version) a ↔
        a ∈ requested.get version ∧ ¬ Covered networks a := by
      intro version a
      -- the exact sets are the requested ones without the whitelist
      rw [hset version, Families.get_map, Families.get_map, inTable_addresses, mem_effective]
    refine ⟨fun r hr => ⟨requested, networks, hrequest, hfile, htables⟩,
      ⟨fun hcause => absurd hcause (no_cause hrequest hfile hread), ?_⟩,
      fun e he => (by cases he), fun hr => (by cases hr), ?_⟩
    · rintro ⟨e, he, -⟩
      cases he
    · rintro - networks' hfile' version a ha
      rw [hfile] at hfile'
      cases hfile'
      exact ((htables version a).mp ha).2
  | @rolled_back requested networks pf' hrequest hfile hread htables =>
    refine ⟨fun r hr => (by cases hr), ⟨fun hcause => absurd hcause (no_cause hrequest hfile hread), ?_⟩,
      fun e he hne => ?_, fun _ => ⟨networks, hfile, htables⟩, ?_⟩
    · rintro ⟨e, he, hne, -⟩
      cases he
      exact absurd rfl hne
    · cases he
      exact absurd rfl hne
    · rintro - networks' hfile' version a ha
      rw [hfile] at hfile'
      cases hfile'
      exact ((htables version a).mp ha).2
  | lost hrequest hfile hread =>
    -- nothing is said of the tables here
    have hdistinct : rollback_failed ≠ rollback_completed := by decide
    refine ⟨fun r hr => (by cases hr), ⟨fun hcause => absurd hcause (no_cause hrequest hfile hread), ?_⟩,
      fun e he _ hne => ?_, fun hr => absurd (Except.error.inj hr) hdistinct, ?_⟩
    · rintro ⟨e, he, -, hne⟩
      cases he
      exact absurd rfl hne
    · cases he
      exact absurd rfl hne
    · rintro (⟨r, hr⟩ | hr)
      · cases hr
      · exact absurd (Except.error.inj hr) hdistinct

/-! A replacement whose second `replace` fails: the old host is whitelisted by now. -/

def sample_request : Json :=
  .obj [("op".toList, .str "replace".toList), ("ipv4".toList, .arr [.str "192.0.2.2".toList]),
    ("ipv6".toList, .arr [])]

def sample_file : Except ReadFailure Text := .ok "192.0.2.0/31\n".toList

def sample_tables : PF :=
  ⟨fun
    | .four => "   192.0.2.1\n   192.0.2.7\n".toList
    | .six => "   2001:db8::1\n".toList, []⟩

def sample_outcomes (call : ℕ) : Outcome := if call = 3 then .failed else .succeeded

theorem replace_spec_rolled_back : ∃ networks, read_whitelist sample_file = .ok networks ∧
    ∀ version a, InTable ((replace (fun _ => []) sample_outcomes sample_file sample_request
      sample_tables).2.tables version) a ↔
        InTable (sample_tables.tables version) a ∧ ¬ Covered networks a :=
  (replace_spec (fun _ => []) sample_outcomes sample_file sample_request sample_tables _ _
    rfl).2.2.2.1 (by decide +kernel)

end F2bguard.PfHelper
