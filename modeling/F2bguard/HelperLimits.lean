/-
How large the request to the helper gets.

The store admits 100 000 claims, the helper as many addresses, and both sides accept a line of
4 MiB. The number of addresses is never the problem, nor are the addresses themselves: they were
validated when they were stored. The line is as long as `request_size` says, and with many long
IPv6 addresses that is more than 4 MiB (`request_within_limits_iff`). Such a store can be reached,
and from then on every enforcement fails (`flooded_request_refused`).
-/
import F2bguard.Enforcer
import F2bguard.RequestSize

set_option autoImplicit false

namespace F2bguard.Enforcer

open F2bguard.PyText F2bguard.PyJson F2bguard.Uuid F2bguard.Ipaddress F2bguard.Networks
open F2bguard.Whitelist F2bguard.PfHelper F2bguard.HelperClient F2bguard.Claims F2bguard.Lifecycle
open F2bguard.Store (DB Served Desired DesiredFamily effective_ips effective_ips_spec)

/-! ## The length of the line

The request is printed without spaces, so its length is a sum over the addresses. -/

/-- The length of a request: the names and the punctuation, the addresses in their quotes, and a
comma between neighbours. -/
def request_size (v4 v6 : List Text) : ℕ :=
  37 + ((v4 ++ v6).map (fun text => text.length + 2)).sum + (v4.length - 1) + (v6.length - 1)

theorem dumps_texts_length (ft : FloatText) {texts : List Text} (h : ∀ t ∈ texts, PlainText t) :
    (dumps ft (.arr (texts.map Json.str))).length =
      2 + (texts.map (fun text => text.length + 2)).sum + (texts.length - 1) := by
  rw [dumps_array_length, List.map_map, List.length_map]
  have hmap : texts.map ((fun x => (dumps ft x).length) ∘ Json.str) =
      texts.map (fun text => text.length + 2) :=
    List.map_congr_left (fun t ht => dumps_text_length ft (h t ht))
  rw [hmap]

theorem encode_request_length (env : HelperClient.Env) {v4 v6 : List Text}
    (h4 : ∀ t ∈ v4, PlainText t) (h6 : ∀ t ∈ v6, PlainText t) :
    (encode_request env v4 v6).length = request_size v4 v6 := by
  have hop : (dumps_str "op".toList).length = 4 := by decide
  have hreplace : (dumps env.floats (.str "replace".toList)).length = 9 :=
    (show (dumps_str "replace".toList).length = 9 by decide)
  have hipv4 : (dumps_str "ipv4".toList).length = 6 := by decide
  have hipv6 : (dumps_str "ipv6".toList).length = 6 := by decide
  rw [encode_request, helper_request, List.length_append, dumps_object_length, request_size,
    List.map_append, List.sum_append]
  simp only [List.map_cons, List.map_nil, List.sum_cons, List.sum_nil, List.length_cons,
    List.length_nil, hop, hreplace, hipv4, hipv6, dumps_texts_length env.floats h4,
    dumps_texts_length env.floats h6]
  omega

theorem plainText_str (a : IPAddress) : PlainText a.str := by
  intro c hc
  rcases IPAddress.mem_str hc with rfl | rfl | hc
  · decide
  · decide
  · exact Sender.plainChar_of_hex hc

/-- A request for fewer than 99 864 addresses always fits. -/
theorem request_size_le_of_few {v4 v6 : List IPAddress} (h : v4.length + v6.length ≤ 99863) :
    request_size (v4.map IPAddress.str) (v6.map IPAddress.str) ≤ MAX_HELPER_MESSAGE := by
  have hsum : (((v4.map IPAddress.str ++ v6.map IPAddress.str)).map
      (fun text => text.length + 2)).sum ≤ (v4 ++ v6).length * 41 := by
    rw [← List.map_append, List.map_map]
    refine (List.sum_le_card_nsmul _ 41 ?_).trans (by rw [List.length_map, smul_eq_mul])
    intro n hn
    obtain ⟨a, -, rfl⟩ := List.mem_map.mp hn
    have := a.str_length_le
    simp only [Function.comp_apply]
    omega
  have hmax : MAX_HELPER_MESSAGE = 4194304 := rfl
  rw [List.length_append] at hsum
  rw [request_size, List.length_map, List.length_map]
  omega

/-! ## The limits on the way

Three parties could refuse a request: the server for its length, the helper for the length of the
line, and `parse_request` for one of its addresses or their number. The first two limits are the
same and the third is never met. -/

/-- The request is within every limit on its way: the server sends it, the helper takes the line
and `parse_request` accepts each address. -/
structure WithinLimits (env : HelperClient.Env) (v4 v6 : List Text) : Prop where
  sent : (encode_request env v4 v6).length ≤ MAX_HELPER_MESSAGE
  received : receive env true (encode_request env v4 v6) = .ok (helper_request v4 v6)
  accepted : ∃ requested, parse_request (helper_request v4 v6) = .ok requested ∧
    requested.v4.map IPAddress.str = v4 ∧ requested.v6.map IPAddress.str = v6

/-- **When a request is within the limits.** For every store that requests were posted to, every
time and every whitelist: the request that `enforce` builds is within every limit exactly when it
is not too large, where its size is computed from the lengths of the addresses that are left.
`parse_request` never refuses it, and the first 99 863 addresses always fit. -/
theorem request_within_limits_iff (env : HelperClient.Env) (store : Store.Env) (db : DB)
    (boundary : ℚ) (networks : List IPNetwork) (h : Served store db) :
    ∃ desired_v4 desired_v6 v4 v6, effective_ips db boundary = some (desired_v4, desired_v6) ∧
      (NetworkIndex.of_networks networks).exclude desired_v4 = some v4 ∧
      (NetworkIndex.of_networks networks).exclude desired_v6 = some v6 ∧
      (WithinLimits env v4 v6 ↔ request_size v4 v6 ≤ MAX_HELPER_MESSAGE) ∧
      (∃ requested, parse_request (helper_request v4 v6) = .ok requested) ∧
      (v4.length + v6.length ≤ 99863 → request_size v4 v6 ≤ MAX_HELPER_MESSAGE) := by
  obtain ⟨d4, d6, heffective, h4, h6, hcount⟩ := effective_ips_spec h boundary
  have hrequestable := requestable_kept networks h4 h6 hcount
  have hparse := parse_request_of hrequestable
  have hlength : (encode_request env ((kept networks d4).map IPAddress.str)
      ((kept networks d6).map IPAddress.str)).length =
        request_size ((kept networks d4).map IPAddress.str) ((kept networks d6).map IPAddress.str) := by
    refine encode_request_length env ?_ ?_
    all_goals
      intro t ht
      obtain ⟨a, -, rfl⟩ := List.mem_map.mp ht
      exact plainText_str a
  refine ⟨_, _, _, _, heffective, exclude_texts networks d4, exclude_texts networks d6, ⟨?_, ?_⟩,
    ⟨_, hparse⟩, ?_⟩
  · intro hlimits
    rw [← hlength]
    exact hlimits.sent
  · intro hsize
    rw [← hlength] at hsize
    have hreceive := @receive_whole env (kept_families networks d4 d6) hsize _ (le_refl _)
    rw [List.take_of_length_le (le_refl _)] at hreceive
    exact ⟨hsize, hreceive, _, hparse, rfl, rfl⟩
  · intro hfew
    rw [List.length_map, List.length_map] at hfew
    exact request_size_le_of_few hfew

/-- The store with two claims, one of them whitelisted. -/
theorem request_within_limits_sample : ∃ desired_v4 desired_v6 v4 v6,
    effective_ips sample_world.db 1 = some (desired_v4, desired_v6) ∧
    (NetworkIndex.of_networks sample_networks).exclude desired_v4 = some v4 ∧
    (NetworkIndex.of_networks sample_networks).exclude desired_v6 = some v6 ∧
    (WithinLimits sample_env v4 v6 ↔ request_size v4 v6 ≤ MAX_HELPER_MESSAGE) := by
  obtain ⟨d4, d6, v4, v6, h, h4, h6, hiff, -⟩ := request_within_limits_iff sample_env
    Store.sample_env sample_world.db 1 sample_networks sample_served
  exact ⟨d4, d6, v4, v6, h, h4, h6, hiff⟩

/-! ## A flood of long addresses

The addresses differ in their last two hextets, and no hextet is shorter than four digits, so
nothing is elided and every text has the full length. -/

/-- The first six hextets of all the addresses: `2001`, and five times `1111`. -/
def flood_network : ℕ := 0x200111111111111111111111

/-- The number of an address: two more hextets, each of four digits. -/
def flood_number (n : ℕ) : ℕ :=
  flood_network * 65536 ^ 2 + (4096 + n / 1000) * 65536 + (4096 + n % 1000)

def flood_address (n : ℕ) : IPAddress := .v6 (Fin.ofNat (2 ^ 128) (flood_number n))

theorem flood_number_lt {n : ℕ} (hn : n < 100000) : flood_number n < 2 ^ 128 := by
  rw [flood_number, flood_network]
  omega

/-- The address with the number. -/
theorem exists_flood_address {n : ℕ} (hn : n < 100000) :
    ∃ v : Fin (2 ^ 128), flood_address n = .v6 v ∧ v.val = flood_number n := by
  refine ⟨_, rfl, ?_⟩
  rw [Fin.val_ofNat, Nat.mod_eq_of_lt (flood_number_lt hn)]

theorem flood_address_toNat {n : ℕ} (hn : n < 100000) : (flood_address n).toNat = flood_number n := by
  obtain ⟨v, hv, hval⟩ := exists_flood_address hn
  rw [hv, IPAddress.toNat, hval]

theorem flood_address_injective {m n : ℕ} (hm : m < 100000) (hn : n < 100000)
    (h : flood_address m = flood_address n) : m = n := by
  have hnumber := congrArg IPAddress.toNat h
  rw [flood_address_toNat hm, flood_address_toNat hn, flood_number, flood_number] at hnumber
  omega

theorem flood_address_unprotected {n : ℕ} (hn : n < 100000) :
    (flood_address n).is_protected = false := by
  obtain ⟨v, hv, hnumber⟩ := exists_flood_address hn
  rw [flood_number, flood_network] at hnumber
  rw [hv]
  simp only [IPAddress.is_protected, IPAddress.is_unspecified, IPAddress.toNat,
    IPAddress.is_multicast, IPAddress.is_loopback, IPAddress.is_link_local,
    IPAddress.is_ipv4_mapped, Bool.or_eq_false_iff, beq_eq_false_iff_ne]
  omega

theorem flood_digits {n : ℕ} (hn : n < 100000) : be_digits 65536 8 (flood_number n) =
    [0x2001, 0x1111, 0x1111, 0x1111, 0x1111, 0x1111, 4096 + n / 1000, 4096 + n % 1000] := by
  have hlow : flood_number n % 65536 = 4096 + n % 1000 := by
    rw [flood_number, flood_network]
    omega
  have hhigh : flood_number n / 65536 = flood_network * 65536 + (4096 + n / 1000) := by
    rw [flood_number, flood_network]
    omega
  have hmiddle : (flood_network * 65536 + (4096 + n / 1000)) % 65536 = 4096 + n / 1000 := by
    rw [flood_network]
    omega
  have hfirst : (flood_network * 65536 + (4096 + n / 1000)) / 65536 = flood_network := by
    rw [flood_network]
    omega
  have hprefix : be_digits 65536 6 flood_network =
      [0x2001, 0x1111, 0x1111, 0x1111, 0x1111, 0x1111] := by decide
  rw [be_digits, be_digits, hlow, hhigh, hmiddle, hfirst, hprefix]
  rfl

theorem to_hex_length_four {d : ℕ} (hlow : 4096 ≤ d) (hhigh : d < 65536) : (to_hex d).length = 4 := by
  have hle : (to_hex d).length ≤ 4 := (to_hex_length_le (by decide)).mpr (by omega)
  have hgt : ¬ (to_hex d).length ≤ 3 := by
    rw [to_hex_length_le (by decide)]
    omega
  omega

/-- All of the addresses are as long as an address can be. -/
theorem flood_address_length {n : ℕ} (hn : n < 100000) : (flood_address n).str.length = 39 := by
  obtain ⟨v, hv, hnumber⟩ := exists_flood_address hn
  have hdigits : ∀ d ∈ be_digits 65536 8 (flood_number n), 4096 ≤ d ∧ d < 65536 := by
    rw [flood_digits hn]
    intro d hd
    simp only [List.mem_cons, List.not_mem_nil, or_false] at hd
    omega
  have hlength : ∀ p ∈ (be_digits 65536 8 (flood_number n)).map to_hex, p.length = 4 := by
    intro p hp
    obtain ⟨d, hd, rfl⟩ := List.mem_map.mp hp
    exact to_hex_length_four (hdigits d hd).1 (hdigits d hd).2
  -- no hextet is zero, so none is left out
  have hsame : compress_hextets ((be_digits 65536 8 (flood_number n)).map to_hex) =
      (be_digits 65536 8 (flood_number n)).map to_hex := by
    rcases compress_hextets_cases ((be_digits 65536 8 (flood_number n)).map to_hex) with
      hsame | ⟨pre, post, k, hk, heq, -⟩
    · exact hsame
    · have hzero := hlength ['0'] (by
        rw [heq]
        simp only [List.mem_append, List.mem_replicate]
        exact Or.inl (Or.inr ⟨by omega, trivial⟩))
      cases hzero
  rw [hv, IPAddress.str, hnumber, ipv6_str, hsame, join_length, List.length_map, List.map_map]
  have hmap : (be_digits 65536 8 (flood_number n)).map (List.length ∘ to_hex) =
      (be_digits 65536 8 (flood_number n)).map (fun _ => 4) :=
    List.map_congr_left (fun d hd => hlength _ (List.mem_map_of_mem hd))
  rw [hmap, flood_digits hn]
  rfl

/-! ## A store that is full of them

The store is not written down but reached, ban after ban. The induction keeps just enough of it to
see that the next ban is accepted: the number, the claims, and that the identities were not used.
-/

/-- The n-th ban: a new identity and the n-th address. -/
def flood_payload (n : ℕ) : Sender.EventPayload where
  event_id := (Uuid4.nth n).text
  seq := n + 1
  op := .ban
  jail := "sshd".toList
  ban_id := (Uuid4.nth n).text
  ip := (flood_address n).str

theorem flood_payload_ip (n : ℕ) : (flood_payload n).ip = (flood_address n).str := by
  simp only [flood_payload]

def flood_value (n : ℕ) : Store.ClaimValue := ⟨(flood_address n).str, 1, none⟩

theorem flood_value_ip (n : ℕ) : (flood_value n).ip = (flood_address n).str := by
  simp only [flood_value]

/-- A request with the n-th ban only. -/
def flood_call (n : ℕ) : Store.Call :=
  ⟨"a".toList, .events [(flood_payload n).event], 100000, 0⟩

theorem flood_valid {n : ℕ} (hn : n < 100000) : (flood_payload n).Valid where
  event_id := (Uuid4.nth n).is_canonical
  seq_pos := Nat.succ_pos n
  seq_le := by
    rw [flood_payload, max_seq]
    dsimp only
    omega
  jail := Sender.valid_sshd
  ban_id := (Uuid4.nth n).is_canonical
  ip := ⟨flood_address n, flood_address_unprotected hn, flood_payload_ip n⟩

theorem flood_validated {n : ℕ} (hn : n < 100000) : (flood_call n).request.Validated := by
  refine Store.Request.Validated.events (show validate_events
    (.arr [sort_keys (flood_payload n).wire]) 1 = .ok _ from ?_)
  have hstart : Sender.StartsAlphanumeric (flood_payload n).jail := by
    change Sender.StartsAlphanumeric "sshd".toList
    decide
  rw [Sender.validate_events_single, if_neg (by decide), Sender.parse_event_wire (flood_valid hn),
    if_pos hstart]
  rfl

/-- The claims of a store are the first n bans, and no others. -/
def FloodClaims (db : DB) (n : ℕ) : Prop :=
  ∀ c k v, Store.claim_set db c k = some v ↔
    c = "a".toList ∧ ∃ i < n, k = ("sshd".toList, (Uuid4.nth i).text) ∧ v = flood_value i

theorem flood_claims_total {db : DB} {n : ℕ} (h : FloodClaims db n) : Store.total_claims db ≤ n := by
  have hnodup : (db.claims.rows.map Store.ClaimRow.key).Nodup := by
    rw [List.Nodup, List.pairwise_map]
    exact db.claims.distinct
  have hsubset : db.claims.rows.map Store.ClaimRow.key ⊆
      (List.range n).map (fun i => ("a".toList, "sshd".toList, (Uuid4.nth i).text)) := by
    intro key hkey
    obtain ⟨r, hr, rfl⟩ := List.mem_map.mp hkey
    have hset : Store.claim_set db r.client_id (r.jail, r.ban_id) = some r.value :=
      Store.claim_set_eq_some.mpr ⟨r, hr, rfl, rfl⟩
    obtain ⟨hclient, i, hi, hk, -⟩ := (h _ _ _).mp hset
    refine List.mem_map.mpr ⟨i, List.mem_range.mpr hi, ?_⟩
    rw [Store.ClaimRow.key, hclient, ← hk]
  have hle := (hnodup.subperm hsubset).length_le
  rwa [List.length_map, List.length_map, List.length_range] at hle

/-- One more ban assigns one more claim. -/
theorem flood_claims_succ {db db' : DB} {n : ℕ} (hn : n < 100000) (h : FloodClaims db n)
    (hclaims : ∀ c, Store.claim_set db' c =
      if c = "a".toList then applyAll (Store.claim_set db "a".toList)
        [Store.Event.change (flood_payload n).event] else Store.claim_set db c) : FloodClaims db' (n + 1) := by
  have hchange : Store.Event.change (flood_payload n).event =
      .assign ("sshd".toList, (Uuid4.nth n).text) (flood_value n) := by
    simp only [Store.Event.change, Sender.EventPayload.event, flood_payload, flood_value]
    rfl
  intro c k v
  rw [hclaims c, hchange]
  by_cases hc : c = "a".toList
  · subst hc
    rw [if_pos rfl, applyAll_cons, applyAll_nil, Change.apply, Function.update_apply]
    by_cases hk : k = ("sshd".toList, (Uuid4.nth n).text)
    · subst hk
      rw [if_pos rfl, Option.some_inj]
      constructor
      · rintro rfl
        exact ⟨rfl, n, Nat.lt_succ_self n, rfl, rfl⟩
      · rintro ⟨-, i, hi, hkey, rfl⟩
        rw [Uuid4.nth_text_injective (by omega) (by omega) (congrArg Prod.snd hkey)]
    · rw [if_neg hk, h]
      constructor
      · rintro ⟨-, i, hi, hkey, hv⟩
        exact ⟨rfl, i, Nat.lt_succ_of_lt hi, hkey, hv⟩
      · rintro ⟨-, i, hi, hkey, hv⟩
        refine ⟨rfl, i, ?_, hkey, hv⟩
        rcases Nat.lt_succ_iff_lt_or_eq.mp hi with hi | rfl
        · exact hi
        · exact absurd hkey hk
  · rw [if_neg hc, h]
    constructor
    · rintro ⟨hclient, -⟩
      exact absurd hclient hc
    · rintro ⟨hclient, -⟩
      exact absurd hclient hc

/-- The store after n bans. -/
structure Flooded (db : DB) (n : ℕ) : Prop where
  served : Served Store.sample_env db
  last_seq : Store.last_seq db "a".toList = n
  below : Store.HistoryBelow db "a".toList
  ids : ∀ r ∈ db.events.rows, ∃ i < n, r.event_id = (Uuid4.nth i).text
  claims : FloodClaims db n

theorem flooded_initial : Flooded DB.initial 0 where
  served := Served.initial _
  last_seq := rfl
  below := ⟨fun r hr => (by cases hr), fun r hr => (by cases hr)⟩
  ids := fun r hr => (by cases hr)
  claims := by
    intro c k v
    constructor
    · intro h
      cases h
    · rintro ⟨-, i, hi, -⟩
      cases hi

/-- The next ban is accepted. -/
theorem Flooded.fresh {db : DB} {n : ℕ} (h : Flooded db n) (hn : n < 100000) :
    ∃ result db', (flood_call n).perform Store.sample_env db = (.ok result, db') ∧
      Store.Fresh Store.sample_env db (flood_call n) db' := by
  -- the n-th UUID has not been used before
  have hnew : ∀ r ∈ db.events.rows, r.event_id ≠ (Uuid4.nth n).text := by
    intro r hr hid
    obtain ⟨i, hi, hri⟩ := h.ids r hr
    have := Uuid4.nth_text_injective (by omega) (by omega) (hri.symm.trans hid)
    omega
  have hunused : Store.prior_event db "a".toList (flood_payload n).event = none := by
    rw [Store.prior_event, Tables.Table.lookup_eq_none]
    intro r hr hid
    exact hnew r hr (congrArg Prod.snd hid)
  have hclean : Store.EventClean Store.sample_env (Store.ensure_client db "a".toList 0) "a".toList
      (flood_payload n).event := by
    refine ⟨fun r hr hid => ?_, fun ip hip => ?_⟩
    · rw [Store.ensure_client_events] at hr
      exact absurd (congrArg Prod.snd hid) (hnew r hr)
    · rw [Store.claim_ip_eq, Store.claim_set_ensure_client, Option.map_eq_some_iff] at hip
      obtain ⟨v, hv, -⟩ := hip
      obtain ⟨-, i, hi, hkey, -⟩ := (h.claims _ _ _).mp hv
      have hsame : (Uuid4.nth n).text = (Uuid4.nth i).text := congrArg Prod.snd hkey
      have := Uuid4.nth_text_injective (by omega) (by omega) hsame
      omega
  have hnewer : Store.last_seq db "a".toList < (flood_payload n).event.seq := by
    rw [h.last_seq]
    exact Nat.lt_succ_self n
  obtain ⟨db2, happly⟩ := Store.apply_event_ok Store.sample_env 0
    (Store.client_exists_ensure_client db "a".toList 0) (h.below.ensure_client 0) hclean
    (by rwa [Store.last_seq_ensure_client])
  have hloop : [(flood_payload n).event].foldlM (Store.apply_event Store.sample_env "a".toList 0)
      (Store.ensure_client db "a".toList 0) = .ok db2 := by
    rw [List.foldlM_cons, happly]
    rfl
  have hacceptable : Store.Acceptable Store.sample_env db "a".toList [(flood_payload n).event] 0 db2 :=
    ⟨List.cons_ne_nil _ _, List.isChain_singleton _,
      fun e he => by rwa [List.mem_singleton.mp he],
      fun e he => by rwa [List.mem_singleton.mp he], hloop⟩
  -- the limits leave room for it
  have htotal : Store.total_claims db2 ≤ n + 1 := by
    refine flood_claims_total (flood_claims_succ hn h.claims fun c => ?_)
    rw [(Store.foldlM_apply_event hloop).claims c, Store.claim_set_ensure_client,
      Store.claim_set_ensure_client]
    rfl
  have hcount : Store.claim_count db2 "a".toList ≤ Store.total_claims db2 :=
    List.length_filter_le _ _
  have hmax : Store.MAX_TOTAL_CLAIMS = 100000 := rfl
  have hlimits : Store.check_limits db2 "a".toList 100000 = .ok () := by
    rw [Store.check_limits, if_neg (by omega), if_neg (by omega)]
  have hresult := hacceptable.apply_events 100000
  rw [hlimits] at hresult
  change ((flood_call n).perform Store.sample_env db).1 = .ok ⟨true, false, false, _⟩ at hresult
  -- the outcome that is left is that of a fresh call
  rcases hp : (flood_call n).perform Store.sample_env db with ⟨result, db'⟩
  rw [hp] at hresult
  dsimp only at hresult
  generalize hcall : flood_call n = call at hp
  cases Store.perform_outcome hp with
  | refused e => cases hresult
  | known duplicate hne hold hdb =>
    cases duplicate with
    | false => cases hresult
    | true => cases hresult
  | fresh hfresh => exact ⟨_, db', rfl, hfresh⟩

theorem flooded_step {db : DB} {n : ℕ} (h : Flooded db n) (hn : n < 100000) :
    Flooded ((Store.Action.call (flood_call n)).perform Store.sample_env db) (n + 1) := by
  obtain ⟨result, db', hp, hfresh⟩ := h.fresh hn
  have hdb : (Store.Action.call (flood_call n)).perform Store.sample_env db = db' := by
    rw [Store.Action.perform, hp]
  have hserved := h.served.perform (a := .call (flood_call n)) (flood_validated hn)
  have hlast : Store.last_seq db' "a".toList = n + 1 := hfresh.last_seq "a".toList
  rw [hdb] at hserved ⊢
  refine ⟨hserved, hlast, ⟨fun r hr hclient => ?_, fun r hr hclient => ?_⟩, fun r hr => ?_, ?_⟩
  · rw [hlast]
    rcases List.mem_append.mp (hfresh.events.mem hr) with hr | hr
    · have := h.below.events r hr hclient
      rw [h.last_seq] at this
      omega
    · rw [List.mem_singleton.mp hr]
      exact le_rfl
  · rw [hlast]
    rcases List.mem_append.mp (hfresh.snapshots.mem hr) with hr | hr
    · have := h.below.snapshots r hr hclient
      rw [h.last_seq] at this
      omega
    · cases hr
  · rcases List.mem_append.mp (hfresh.events.mem hr) with hr | hr
    · obtain ⟨i, hi, hid⟩ := h.ids r hr
      exact ⟨i, Nat.lt_succ_of_lt hi, hid⟩
    · rw [List.mem_singleton.mp hr]
      exact ⟨n, Nat.lt_succ_self n, rfl⟩
  · exact flood_claims_succ hn h.claims hfresh.claims

theorem exists_flooded {n : ℕ} (hn : n ≤ 100000) : ∃ db, Flooded db n := by
  induction n with
  | zero => exact ⟨_, flooded_initial⟩
  | succ n ih =>
    obtain ⟨db, hdb⟩ := ih (by omega)
    exact ⟨_, flooded_step hdb hn⟩

/-- What the store wants blocked then. -/
theorem flooded_desired {db : DB} {n : ℕ} (h : Flooded db n) (boundary : ℚ) (a : IPAddress) :
    Desired db boundary a ↔ ∃ i < n, a = flood_address i := by
  constructor
  · rintro ⟨r, hr, -, -, hip⟩
    have hset : Store.claim_set db r.client_id (r.jail, r.ban_id) = some r.value :=
      Store.claim_set_eq_some.mpr ⟨r, hr, rfl, rfl⟩
    obtain ⟨-, i, hi, -, hvalue⟩ := (h.claims _ _ _).mp hset
    refine ⟨i, hi, IPAddress.str_injective ?_⟩
    rw [← hip]
    exact (congrArg Store.ClaimValue.ip hvalue).trans (flood_value_ip i)
  · rintro ⟨i, hi, rfl⟩
    obtain ⟨r, hr, -, hvalue⟩ :=
      Store.claim_set_eq_some.mp ((h.claims "a".toList _ _).mpr ⟨rfl, i, hi, rfl, rfl⟩)
    refine ⟨r, hr, congrArg Store.ClaimValue.permanent hvalue, fun t ht => ?_,
      (congrArg Store.ClaimValue.ip hvalue).trans (flood_value_ip i)⟩
    have hexpires : r.expires_at = none := congrArg Store.ClaimValue.expires_at hvalue
    rw [hexpires] at ht
    cases ht

theorem flooded_family {db : DB} (h : Flooded db 100000) {boundary : ℚ} {v6 : List IPAddress}
    (h6 : DesiredFamily db boundary .six v6) : v6.Perm ((List.range 100000).map flood_address) := by
  have hnodup : ((List.range 100000).map flood_address).Nodup := by
    refine List.Nodup.map_on (fun x hx y hy hxy => ?_) List.nodup_range
    exact flood_address_injective (List.mem_range.mp hx) (List.mem_range.mp hy) hxy
  rw [List.perm_ext_iff_of_nodup h6.nodup hnodup]
  intro a
  rw [h6.mem_iff, flooded_desired h, List.mem_map]
  constructor
  · rintro ⟨-, i, hi, rfl⟩
    exact ⟨i, List.mem_range.mpr hi, rfl⟩
  · rintro ⟨i, hi, rfl⟩
    exact ⟨rfl, i, List.mem_range.mp hi, rfl⟩

/-- 100 000 IPv6 addresses of 39 characters need 4 200 036 bytes. -/
theorem flooded_size {db : DB} (h : Flooded db 100000) {boundary : ℚ} {v4 v6 : List IPAddress}
    (h6 : DesiredFamily db boundary .six v6) :
    4200036 ≤ request_size (v4.map IPAddress.str) (v6.map IPAddress.str) := by
  have hperm := flooded_family h h6
  have hlength : v6.length = 100000 := by
    rw [hperm.length_eq, List.length_map, List.length_range]
  have hsum : ((v6.map IPAddress.str).map (fun text => text.length + 2)).sum = 4100000 := by
    rw [List.map_map, (hperm.map _).sum_eq, List.map_map]
    have hmap : (List.range 100000).map
        (((fun text : Text => text.length + 2) ∘ IPAddress.str) ∘ flood_address) =
          (List.range 100000).map (fun _ => 41) := by
      refine List.map_congr_left (fun i hi => ?_)
      change (flood_address i).str.length + 2 = 41
      rw [flood_address_length (List.mem_range.mp hi)]
    rw [hmap, List.map_const', List.length_range, List.sum_replicate, smul_eq_mul]
  rw [request_size, List.map_append, List.sum_append, hsum, List.length_map, List.length_map, hlength]
  omega

/-- **The limit can be reached.** A store that 100 000 accepted bans lead to, no whitelist, and a
request that is too large: the server refuses to send it, whatever the helper would do. -/
theorem flooded_request_refused : ∃ (db : DB) (v4 v6 : List Text), Served Store.sample_env db ∧
    effective_ips db 0 = some (v4, v6) ∧ (NetworkIndex.of_networks []).exclude v4 = some v4 ∧
    (NetworkIndex.of_networks []).exclude v6 = some v6 ∧ ¬ WithinLimits sample_env v4 v6 ∧
    ∀ outcomes file exchanges pf, HelperClient.replace sample_env outcomes file exchanges v4 v6 pf =
      (.error (.enforcement_error ⟨"helper request exceeds size limit".toList⟩), pf) := by
  obtain ⟨db, h⟩ := exists_flooded (le_refl 100000)
  obtain ⟨d4, d6, heffective, h4, h6, -⟩ := effective_ips_spec h.served 0
  have hexclude : ∀ addresses : List IPAddress, (NetworkIndex.of_networks []).exclude
      (addresses.map IPAddress.str) = some (addresses.map IPAddress.str) := by
    intro addresses
    rw [exclude_texts, kept, List.filter_eq_self.mpr (fun a _ => by simp)]
  have hsize : MAX_HELPER_MESSAGE < (encode_request sample_env (d4.map IPAddress.str)
      (d6.map IPAddress.str)).length := by
    rw [encode_request_length sample_env]
    · exact lt_of_lt_of_le (by decide) (flooded_size h h6)
    all_goals
      intro t ht
      obtain ⟨a, -, rfl⟩ := List.mem_map.mp ht
      exact plainText_str a
  refine ⟨db, _, _, h.served, heffective, hexclude d4, hexclude d6,
    fun hlimits => absurd hlimits.sent (not_le.mpr hsize), fun outcomes file exchanges pf => ?_⟩
  rw [HelperClient.replace, if_pos hsize]

end F2bguard.Enforcer
