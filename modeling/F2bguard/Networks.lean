/-
`NetworkIndex` (`networks.py`): whether an address lies in one of many networks.

The networks of a family become merged intervals of numbers, and a lookup is one binary
search. For every list of networks the index answers what the list says, and it keeps as few
intervals as possible (`network_index_correct`).
-/
import F2bguard.Ipaddress
import F2bguard.Intervals
import Mathlib.Algebra.Order.SuccPred
import Mathlib.Order.Bounds.Basic

set_option autoImplicit false

namespace F2bguard.Networks

open F2bguard.PyText F2bguard.Ipaddress F2bguard.Intervals

/-- Starts and ends of merged intervals. They are two lists in the source, kept at one length. -/
structure _Intervals where
  starts : List ℕ
  ends : List ℕ
  same_length : ends.length = starts.length

namespace _Intervals

def of_merged (merged : List (ℕ × ℕ)) : _Intervals :=
  ⟨merged.map Prod.fst, merged.map Prod.snd, by rw [List.length_map, List.length_map]⟩

/-- The intervals as pairs. -/
def pairs (v : _Intervals) : List (ℕ × ℕ) := v.starts.zip v.ends

def contains (v : _Intervals) (value : ℕ) : Bool :=
  match bisect_right v.starts value with
  | 0 => false
  | position + 1 => v.ends[position]?.any (fun last => value ≤ last)

end _Intervals

/-- The order of `sort` on pairs. -/
def pair_le (a b : ℕ × ℕ) : Prop := a.1 < b.1 ∨ (a.1 = b.1 ∧ a.2 ≤ b.2)

instance : DecidableRel pair_le :=
  fun a b => inferInstanceAs (Decidable (a.1 < b.1 ∨ (a.1 = b.1 ∧ a.2 ≤ b.2)))

/-- `_merge`: sort, then one pass. Intervals with the same start are sorted by their ends, which
makes no difference to the result. -/
def _merge (ranges : List (ℕ × ℕ)) : _Intervals :=
  _Intervals.of_merged (merge (ranges.insertionSort pair_le))

/-- `_families` -/
structure NetworkIndex where
  family : Version → _Intervals

/-- The intervals `__init__` collects for a family. -/
def family_ranges (networks : List IPNetwork) (version : Version) : List (ℕ × ℕ) :=
  (networks.filter (fun n => n.version = version)).map (fun n => (n.first, n.last))

namespace NetworkIndex

def of_networks (networks : List IPNetwork) : NetworkIndex :=
  ⟨fun version => _merge (family_ranges networks version)⟩

def contains (index : NetworkIndex) (address : IPAddress) : Bool :=
  (index.family address.version).contains address.toNat

/-- `contains` of a literal, `none` for the `ValueError` of `ip_address`. -/
def contains_literal (index : NetworkIndex) (address : Text) : Option Bool :=
  (ip_address address).map index.contains

/-- `exclude` of literals, in their order, `none` when one of them is none. The first that is none
raises, so nothing is returned for the others. -/
def exclude (index : NetworkIndex) : List Text → Option (List Text)
  | [] => some []
  | address :: addresses =>
      (index.contains_literal address).bind (fun contained =>
        (index.exclude addresses).map (fun kept => if contained then kept else address :: kept))

/-- `__len__` -/
def len (index : NetworkIndex) : ℕ :=
  (index.family .four).starts.length + (index.family .six).starts.length

end NetworkIndex

/-! ## One family

The numbers of a family are compared with the numbers of its networks only. A network is an
interval, so what the networks hold is what the intervals cover. -/

theorem pairs_of_merged (merged : List (ℕ × ℕ)) : (_Intervals.of_merged merged).pairs = merged := by
  rw [_Intervals.pairs, _Intervals.of_merged, List.zip_map', List.map_id']

theorem pairs_length (v : _Intervals) : v.pairs.length = v.starts.length := by
  rw [_Intervals.pairs, List.length_zip, v.same_length, min_self]

theorem sorted_by_start (ranges : List (ℕ × ℕ)) :
    (ranges.insertionSort pair_le).Pairwise (fun r s => r.1 ≤ s.1) := by
  have : Std.Total pair_le := ⟨by
    intro a b
    unfold pair_le
    omega⟩
  have : IsTrans (ℕ × ℕ) pair_le := ⟨by
    intro a b c
    unfold pair_le
    omega⟩
  refine (List.pairwise_insertionSort pair_le ranges).imp ?_
  intro a b h
  unfold pair_le at h
  omega

/-- The intervals of a family have gaps and cover what its networks cover. -/
theorem merge_spec {ranges : List (ℕ × ℕ)} (h : ∀ r ∈ ranges, r.1 ≤ r.2) :
    Separated (_merge ranges).pairs ∧ ∀ a, Covers (_merge ranges).pairs a ↔ Covers ranges a := by
  have hperm := List.perm_insertionSort pair_le ranges
  rw [_merge, pairs_of_merged]
  obtain ⟨hseparated, hcovers⟩ :=
    merge_covers (fun r hr => h r (hperm.mem_iff.mp hr)) (sorted_by_start ranges)
  exact ⟨hseparated, fun a => (hcovers a).trans (Covers.of_perm hperm)⟩

theorem intervals_contains {merged : List (ℕ × ℕ)} (h : Separated merged) (value : ℕ) :
    (_Intervals.of_merged merged).contains value = true ↔ Covers merged value := by
  rw [covers_iff_bisect h, _Intervals.contains]
  have hends : ∀ k : ℕ, (_Intervals.of_merged merged).ends[k]? = merged[k]?.map Prod.snd := by
    intro k
    rw [_Intervals.of_merged, List.getElem?_map]
  change (match bisect_right (merged.map Prod.fst) value with
    | 0 => false
    | position + 1 => (_Intervals.of_merged merged).ends[position]?.any (fun last => value ≤ last))
      = true ↔ _
  cases hplace : bisect_right (merged.map Prod.fst) value with
  | zero => simp
  | succ position =>
    dsimp only
    rw [hends, Option.any_eq_true]
    constructor
    · rintro ⟨last, hlast, hle⟩
      obtain ⟨i, hi, rfl⟩ := Option.map_eq_some_iff.mp hlast
      exact ⟨position, i, rfl, hi, of_decide_eq_true hle⟩
    · rintro ⟨position', i, hsame, hi, hle⟩
      cases hsame
      exact ⟨i.2, by rw [hi]; rfl, decide_eq_true hle⟩

/-! ## The index

Both families together. An address is looked up in its own family, so an IPv6 network never holds
an IPv4 address, also not as the mapped one. -/

theorem family_ranges_le (networks : List IPNetwork) (version : Version) :
    ∀ r ∈ family_ranges networks version, r.1 ≤ r.2 := by
  intro r hr
  obtain ⟨n, -, rfl⟩ := List.mem_map.mp hr
  exact n.first_le_last

theorem covers_family_ranges (networks : List IPNetwork) (a : IPAddress) :
    Covers (family_ranges networks a.version) a.toNat ↔ ∃ n ∈ networks, n.Contains a := by
  constructor
  · rintro ⟨r, hr, hwithin⟩
    obtain ⟨n, hn, rfl⟩ := List.mem_map.mp hr
    obtain ⟨hmem, hversion⟩ := List.mem_filter.mp hn
    exact ⟨n, hmem, (n.contains_iff a).mpr ⟨of_decide_eq_true hversion, hwithin⟩⟩
  · rintro ⟨n, hn, hcontains⟩
    obtain ⟨hversion, hwithin⟩ := (n.contains_iff a).mp hcontains
    exact ⟨_, List.mem_map_of_mem (List.mem_filter.mpr ⟨hn, decide_eq_true hversion⟩), hwithin⟩

theorem family_spec (networks : List IPNetwork) (version : Version) :
    Separated ((NetworkIndex.of_networks networks).family version).pairs ∧
      ∀ a, Covers ((NetworkIndex.of_networks networks).family version).pairs a ↔
        Covers (family_ranges networks version) a :=
  merge_spec (family_ranges_le networks version)

/-- The index contains the addresses of its networks. -/
theorem contains_iff (networks : List IPNetwork) (a : IPAddress) :
    (NetworkIndex.of_networks networks).contains a = true ↔ ∃ n ∈ networks, n.Contains a := by
  obtain ⟨hseparated, hcovers⟩ := family_spec networks a.version
  rw [← covers_family_ranges, ← hcovers]
  change Separated (_merge _).pairs at hseparated
  change (_merge _).contains a.toNat = true ↔ Covers (_merge _).pairs _
  rw [_merge, pairs_of_merged] at hseparated ⊢
  exact intervals_contains hseparated a.toNat

/-- The literal is an address of a network. -/
def literal_covered (networks : List IPNetwork) (literal : Text) : Bool :=
  (ip_address literal).any (fun a => networks.any (fun n => n.Contains a))

theorem contains_literal_eq (networks : List IPNetwork) {literal : Text} {a : IPAddress}
    (h : ip_address literal = some a) :
    (NetworkIndex.of_networks networks).contains_literal literal =
      some (literal_covered networks literal) := by
  rw [NetworkIndex.contains_literal, literal_covered, h, Option.map_some, Option.any_some,
    Option.some_inj, Bool.eq_iff_iff, contains_iff, List.any_eq_true]
  simp only [decide_eq_true_eq]

/-- `exclude` needs literals and keeps the uncovered ones where they stand. -/
theorem exclude_eq_some (networks : List IPNetwork) {addresses kept : List Text} :
    (NetworkIndex.of_networks networks).exclude addresses = some kept ↔
      (∀ t ∈ addresses, (ip_address t).isSome) ∧
        kept = addresses.filter (fun t => ¬ literal_covered networks t) := by
  induction addresses generalizing kept with
  | nil =>
    rw [NetworkIndex.exclude, Option.some_inj]
    exact ⟨fun h => ⟨fun t ht => (by cases ht), h.symm⟩, fun h => h.2.symm⟩
  | cons t ts ih =>
    rw [NetworkIndex.exclude, List.forall_mem_cons]
    cases hparse : ip_address t with
    | none => simp [NetworkIndex.contains_literal, hparse]
    | some a =>
      rw [contains_literal_eq networks hparse, Option.bind_some, Option.map_eq_some_iff]
      constructor
      · rintro ⟨rest, hrest, rfl⟩
        obtain ⟨hall, rfl⟩ := ih.mp hrest
        refine ⟨⟨rfl, hall⟩, ?_⟩
        by_cases hcovered : literal_covered networks t = true
        · rw [if_pos hcovered, List.filter_cons_of_neg (by simpa using hcovered)]
        · rw [if_neg hcovered, List.filter_cons_of_pos (by simpa using hcovered)]
      · rintro ⟨⟨-, hall⟩, rfl⟩
        refine ⟨_, ih.mpr ⟨hall, rfl⟩, ?_⟩
        by_cases hcovered : literal_covered networks t = true
        · rw [if_pos hcovered, List.filter_cons_of_neg (by simpa using hcovered)]
        · rw [if_neg hcovered, List.filter_cons_of_pos (by simpa using hcovered)]

theorem network_last_lt (n : IPNetwork) : n.last < 2 ^ n.version.width := by
  have hnet : ∀ {w : ℕ} (net : Net w), net.broadcast_address < 2 ^ w := by
    intro w net
    obtain ⟨q, hq⟩ := net.host_bits
    have hlt := net.network_address_lt
    have hpow : 2 ^ w = 2 ^ (w - net.prefixlen) * 2 ^ net.prefixlen := by
      rw [← pow_add, Nat.sub_add_cancel net.prefixlen_le]
    have hpos := net.num_addresses_pos
    -- the next network starts at the end of the family or before it
    have hq' : q + 1 ≤ 2 ^ net.prefixlen := by
      by_contra hnot
      have := Nat.mul_le_mul_left (2 ^ (w - net.prefixlen)) (Nat.lt_succ_iff.mp (not_le.mp hnot))
      omega
    have := Nat.mul_le_mul_left (2 ^ (w - net.prefixlen)) hq'
    rw [Net.broadcast_address]
    rw [Net.num_addresses] at hpos ⊢
    rw [Nat.mul_add, Nat.mul_one] at this
    omega
  cases n with
  | v4 net => exact hnet net
  | v6 net => exact hnet net

/-- Every number of a family is an address. -/
theorem exists_address (version : Version) {n : ℕ} (h : n < 2 ^ version.width) :
    ∃ a : IPAddress, a.version = version ∧ a.toNat = n := by
  cases version with
  | four => exact ⟨.v4 ⟨n, h⟩, rfl, rfl⟩
  | six => exact ⟨.v6 ⟨n, h⟩, rfl, rfl⟩

theorem family_len_le (networks : List IPNetwork) (version : Version) (cover : List (ℕ × ℕ))
    (hsame : ∀ a : IPAddress, a.version = version →
      ((∃ n ∈ networks, n.Contains a) ↔ Covers cover a.toNat)) :
    ((NetworkIndex.of_networks networks).family version).starts.length ≤ cover.length := by
  obtain ⟨hseparated, hcovers⟩ := family_spec networks version
  rw [← pairs_length]
  refine hseparated.length_le (fun i hi n hn => ?_)
  -- the bounds of the intervals are addresses
  have hlast : i.2 < 2 ^ version.width := by
    obtain ⟨r, hr, hwithin⟩ := (hcovers i.2).mp ⟨i, hi, hseparated.nonempty i hi, le_rfl⟩
    obtain ⟨net, hnet, rfl⟩ := List.mem_map.mp hr
    have hversion : net.version = version := of_decide_eq_true (List.mem_filter.mp hnet).2
    rw [← hversion]
    exact hwithin.2.trans_lt (network_last_lt net)
  obtain ⟨a, rfl, rfl⟩ := exists_address version (hn.trans_lt hlast)
  rw [hcovers, covers_family_ranges, hsame a rfl]

/-- **The index is the list.** For every list of networks: the index contains an address exactly
when some network contains it; `exclude` keeps the uncovered literals in their order; between
neighbouring intervals of a family an address is left out; and the number of intervals is the
least that covers these addresses. -/
theorem network_index_correct (networks : List IPNetwork) :
    (∀ a, (NetworkIndex.of_networks networks).contains a = true ↔
      ∃ n ∈ networks, n.Contains a) ∧
    (∀ addresses kept, (NetworkIndex.of_networks networks).exclude addresses = some kept ↔
      (∀ t ∈ addresses, (ip_address t).isSome) ∧
        kept = addresses.filter (fun t => ¬ literal_covered networks t)) ∧
    (∀ version, (∀ i ∈ ((NetworkIndex.of_networks networks).family version).pairs, i.1 ≤ i.2) ∧
      ((NetworkIndex.of_networks networks).family version).pairs.Pairwise
        (fun i j => i.2 + 1 < j.1)) ∧
    IsLeast {k | ∃ cover : Version → List (ℕ × ℕ),
        (∀ a, (∃ n ∈ networks, n.Contains a) ↔ Covers (cover a.version) a.toNat) ∧
          k = (cover .four).length + (cover .six).length}
      (NetworkIndex.of_networks networks).len := by
  refine ⟨contains_iff networks, fun addresses kept => exclude_eq_some networks,
    fun version => ?_, ?_, ?_⟩
  · obtain ⟨hseparated, -⟩ := family_spec networks version
    exact ⟨hseparated.nonempty, hseparated.gaps⟩
  · refine ⟨fun version => ((NetworkIndex.of_networks networks).family version).pairs, ?_, ?_⟩
    · intro a
      rw [(family_spec networks a.version).2, covers_family_ranges]
    · rw [NetworkIndex.len, pairs_length, pairs_length]
  · rintro k ⟨cover, hsame, rfl⟩
    have hfamily : ∀ version, ((NetworkIndex.of_networks networks).family version).starts.length ≤
        (cover version).length := by
      intro version
      refine family_len_le networks version (cover version) ?_
      rintro a rfl
      exact hsame a
    exact Nat.add_le_add (hfamily .four) (hfamily .six)

end F2bguard.Networks
