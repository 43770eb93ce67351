/-
Payloads, from the sender's tables to the receiver's validators.

Sender and receiver each have a grammar of their own for UUIDs, addresses, jails and
field sets. `Valid` says what the sender guarantees of a payload it writes. The receiver
reads a valid payload as exactly the event or the claims it stands for, provided each
jail starts with a letter or a digit, and refuses it otherwise (`parse_event_wire`,
`parse_claim_wire`): the sender's grammar for jails allows more first characters.

The second half is the way in between. A payload is stored as a text, read back, wrapped,
printed again and read by the receiver; for a valid payload each of these steps gives
back what went in.
-/
import F2bguard.Sender
import F2bguard.Server

set_option autoImplicit false

namespace F2bguard.Sender

open F2bguard.PyText F2bguard.PyJson F2bguard.Ipaddress F2bguard.Uuid F2bguard.Claims
open F2bguard.Tables

/-! ## What the sender guarantees

Every payload in an outbox was built by a call that checked its arguments. `Valid` collects what
the checks leave, and is an invariant of the runs of the sender. -/

/-- A jail name the sender lets through. -/
structure ValidJail (jail : Text) : Prop where
  nonempty : jail ≠ []
  short : jail.length ≤ MAX_JAIL
  chars : ∀ c ∈ jail, is_jail_char c = true

/-- An address as `canonical_ip` prints it. -/
def CanonicalIP (ip : Text) : Prop := ∃ a : IPAddress, a.is_protected = false ∧ ip = a.str

/-- An event payload that `enqueue` can have written. -/
structure EventPayload.Valid (p : EventPayload) : Prop where
  event_id : Canonical p.event_id
  seq_pos : 0 < p.seq
  seq_le : p.seq ≤ max_seq
  jail : ValidJail p.jail
  ban_id : Canonical p.ban_id
  ip : CanonicalIP p.ip

structure SnapshotClaim.Valid (c : SnapshotClaim) : Prop where
  jail : ValidJail c.jail
  ban_id : Canonical c.ban_id
  ip : CanonicalIP c.ip

/-- `(jail, ban_id)` -/
def SnapshotClaim.key (c : SnapshotClaim) : Text × Text := (c.jail, c.ban_id)

/-- A snapshot payload that `enqueue_snapshot` can have written. That no jail has one `ban_id`
twice is the table's constraint, and the receiver checks it again. -/
structure SnapshotPayload.Valid (p : SnapshotPayload) : Prop where
  snapshot_id : Canonical p.snapshot_id
  seq_pos : 0 < p.seq
  seq_le : p.seq ≤ max_seq
  claims : ∀ c ∈ p.claims, c.Valid
  keys : (p.claims.map SnapshotClaim.key).Nodup

def Payload.Valid : Payload → Prop
  | .event p => p.Valid
  | .snapshot p => p.Valid

theorem _jail_eq_ok {value jail : Text} : _jail value = .ok jail ↔ ValidJail value ∧ jail = value := by
  unfold _jail
  constructor
  · intro h
    split at h
    · cases h
    · split at h
      · cases h
      · rename_i hlen hchars
        cases h
        push Not at hlen hchars
        exact ⟨⟨hlen.1, hlen.2, List.all_eq_true.mp hchars⟩, rfl⟩
  · rintro ⟨⟨hne, hlen, hchars⟩, rfl⟩
    rw [if_neg (by push Not; exact ⟨hne, hlen⟩), if_neg (by simpa using hchars)]

theorem canonical_ip_eq_ok {value ip : Text} (h : canonical_ip value = .ok ip) :
    CanonicalIP ip := by
  unfold canonical_ip at h
  dsimp only at h
  split at h
  · cases h
  · split at h
    · cases h
    · rename_i parsed _
      split at h
      · cases h
      · rename_i hprotected
        cases h
        exact ⟨parsed, by simpa using hprotected, rfl⟩

/-- The sender leaves a literal it has printed as it is. -/
theorem canonical_ip_self {ip : Text} (h : CanonicalIP ip) : canonical_ip ip = .ok ip := by
  obtain ⟨a, ha, rfl⟩ := h
  have hstrip : strip a.str = a.str := by
    refine strip_of_no_space (fun c hc => ?_)
    rcases IPAddress.mem_str hc with rfl | rfl | hhex
    · decide
    · decide
    · exact not_space_of_hex hhex
  simp only [canonical_ip, hstrip]
  rw [if_neg (not_percent_mem_str a), ip_address_str]
  simp [ha]

/-! ## Fields

What a valid field is to the receiver. Addresses and UUIDs are read as they are; for a jail the
receiver asks one thing more. -/

theorem receiver_uuid {value : Text} (h : Canonical value) (name : Text) :
    Claims._uuid (.str value) name = .ok value := by
  obtain ⟨n, hint, hstr⟩ := uuid_str_uuid_int h
  simp [Claims._uuid, hint, hstr, lower_of_canonical h]

theorem receiver_ip {ip : Text} (h : CanonicalIP ip) : _ip (.str ip) = .ok ip := by
  obtain ⟨a, ha, rfl⟩ := h
  simp [_ip, not_percent_mem_str, ha]

theorem receiver_seq {seq : ℕ} (hpos : 0 < seq) (hle : seq ≤ max_seq) :
    _seq (.int seq) = .ok seq := by
  rw [_seq, if_pos ⟨by exact_mod_cast hpos, by exact_mod_cast hle⟩]
  rfl

/-- The receiver's pattern is narrower in the first character, and there only. -/
theorem id_re_of_validJail {jail : Text} (h : ValidJail jail) :
    id_re jail = jail.head?.any is_id_start := by
  obtain ⟨hne, hlen, hchars⟩ := h
  cases jail with
  | nil => exact absurd rfl hne
  | cons c cs =>
    have hcs : cs.all is_id_char = true := by
      rw [List.all_eq_true]
      intro x hx
      have := hchars x (List.mem_cons_of_mem _ hx)
      simp only [is_jail_char, Bool.or_eq_true] at this
      simp only [is_id_char, Bool.or_eq_true]
      tauto
    have hshort : cs.length ≤ 127 := by
      rw [List.length_cons, MAX_JAIL] at hlen
      omega
    simp [id_re, hcs, hshort]

/-! ## Events and claims

The receiver goes through the fields in its own order. All that can go wrong in a valid payload is
the jail, so a payload is accepted or refused by that one check. -/

/-- The event a payload stands for. -/
def EventPayload.event (p : EventPayload) : Event where
  event_id := p.event_id
  seq := p.seq
  op := p.op
  jail := p.jail
  ban_id := p.ban_id
  ip := p.ip
  permanent := some true
  expires_at := none

/-- The claim an entry of a snapshot stands for. -/
def SnapshotClaim.claim (c : SnapshotClaim) : Claim where
  jail := c.jail
  ban_id := c.ban_id
  ip := c.ip
  permanent := true
  expires_at := none

/-- The jail starts with a letter or a digit. -/
def StartsAlphanumeric (jail : Text) : Prop := jail.head?.any is_id_start = true

instance (jail : Text) : Decidable (StartsAlphanumeric jail) :=
  inferInstanceAs (Decidable (jail.head?.any is_id_start = true))

theorem receiver_jail {jail : Text} (h : ValidJail jail) :
    _identifier (.str jail) "jail".toList =
      if StartsAlphanumeric jail then .ok jail else invalid "jail is invalid".toList := by
  simp only [_identifier, id_re_of_validJail h, StartsAlphanumeric]
  rfl

/-- The text of an event payload says what the payload says, with its keys sorted. -/
theorem sort_keys_event (p : EventPayload) : sort_keys p.wire = .obj [
    ("ban_id".toList, .str p.ban_id), ("event_id".toList, .str p.event_id),
    ("expires_at".toList, .null), ("ip".toList, .str p.ip), ("jail".toList, .str p.jail),
    ("op".toList, .str p.op.text), ("permanent".toList, .bool true),
    ("seq".toList, .int p.seq)] := rfl

theorem sort_keys_claim (c : SnapshotClaim) : sort_keys c.wire = .obj [
    ("ban_id".toList, .str c.ban_id), ("expires_at".toList, .null), ("ip".toList, .str c.ip),
    ("jail".toList, .str c.jail), ("permanent".toList, .bool true)] := rfl

theorem parse_op_text (op : Op) : Claims.parse_op (.str op.text) = .ok op := by
  cases op <;> rfl

/-- The receiver reads a valid event payload as the event it stands for, unless it refuses
the jail. -/
theorem parse_event_wire {p : EventPayload} (h : p.Valid) :
    parse_event (sort_keys p.wire) =
      if StartsAlphanumeric p.jail then .ok p.event else invalid "jail is invalid".toList := by
  have hop : Claims.parse_op (.str p.op.text) = .ok p.op := parse_op_text p.op
  have hpermanent : parse_permanent p.op (.bool true) = .ok (some true) := by
    cases p.op <;> rfl
  have hparse : parse_event (sort_keys p.wire) = (do
      let op ← Claims.parse_op (.str p.op.text)
      let permanent ← parse_permanent op (.bool true)
      let event_id ← Claims._uuid (.str p.event_id) "event_id".toList
      let seq ← _seq (.int p.seq)
      let jail ← _identifier (.str p.jail) "jail".toList
      let ban_id ← Claims._uuid (.str p.ban_id) "ban_id".toList
      let ip ← _ip (.str p.ip)
      return ⟨event_id, seq, op, jail, ban_id, ip, permanent, none⟩) := rfl
  rw [hparse, hop]
  dsimp only [bind, Except.bind]
  rw [hpermanent, receiver_uuid h.event_id, receiver_seq h.seq_pos h.seq_le,
    receiver_jail h.jail, receiver_uuid h.ban_id, receiver_ip h.ip]
  by_cases hjail : StartsAlphanumeric p.jail
  · rw [if_pos hjail, if_pos hjail]
    rfl
  · rw [if_neg hjail, if_neg hjail]
    rfl

/-- The same for one claim of a snapshot. -/
theorem parse_claim_wire {c : SnapshotClaim} (h : c.Valid) :
    parse_claim (sort_keys c.wire) =
      if StartsAlphanumeric c.jail then .ok c.claim else invalid "jail is invalid".toList := by
  have hparse : parse_claim (sort_keys c.wire) = (do
      let jail ← _identifier (.str c.jail) "jail".toList
      let ban_id ← Claims._uuid (.str c.ban_id) "ban_id".toList
      let ip ← _ip (.str c.ip)
      return ⟨jail, ban_id, ip, true, none⟩) := rfl
  rw [hparse, receiver_jail h.jail, receiver_uuid h.ban_id, receiver_ip h.ip]
  by_cases hjail : StartsAlphanumeric c.jail
  · rw [if_pos hjail, if_pos hjail]
    rfl
  · rw [if_neg hjail, if_neg hjail]
    rfl

/-- The claims of a valid snapshot payload are read one by one, up to the first jail the
receiver refuses. -/
theorem parse_claims_wire {claims : List SnapshotClaim} (h : ∀ c ∈ claims, c.Valid) :
    (claims.map (fun c => sort_keys c.wire)).mapM parse_claim =
      if ∀ c ∈ claims, StartsAlphanumeric c.jail then .ok (claims.map SnapshotClaim.claim)
      else invalid "jail is invalid".toList := by
  induction claims with
  | nil => rfl
  | cons c cs ih =>
    rw [List.map_cons, List.mapM_cons, parse_claim_wire (h c List.mem_cons_self),
      ih (fun x hx => h x (List.mem_cons_of_mem _ hx))]
    simp only [List.forall_mem_cons]
    by_cases hc : StartsAlphanumeric c.jail
    · by_cases hcs : ∀ x ∈ cs, StartsAlphanumeric x.jail
      · rw [if_pos hc, if_pos hcs, if_pos ⟨hc, hcs⟩]
        rfl
      · have hne : ¬ (StartsAlphanumeric c.jail ∧ ∀ x ∈ cs, StartsAlphanumeric x.jail) :=
          fun h => hcs h.2
        rw [if_pos hc, if_neg hcs, if_neg hne]
        rfl
    · have hne : ¬ (StartsAlphanumeric c.jail ∧ ∀ x ∈ cs, StartsAlphanumeric x.jail) :=
        fun h => hc h.1
      rw [if_neg hc, if_neg hne]
      rfl

theorem claim_keys (claims : List SnapshotClaim) :
    (claims.map SnapshotClaim.claim).map Claim.key = claims.map SnapshotClaim.key := by
  rw [List.map_map]
  rfl

/-- The receiver reads a valid snapshot payload as the claims it stands for, unless it has
too many claims or the receiver refuses a jail. -/
theorem validate_snapshot_wire {p : SnapshotPayload} (h : p.Valid) (maximum : ℕ) :
    validate_snapshot (.str p.snapshot_id) (.int p.seq)
        (.arr (p.claims.map (fun c => sort_keys c.wire))) maximum =
      if maximum < p.claims.length then invalid "too many claims".toList
      else if ∀ c ∈ p.claims, StartsAlphanumeric c.jail then
        .ok (p.snapshot_id, p.seq, p.claims.map SnapshotClaim.claim)
      else invalid "jail is invalid".toList := by
  unfold validate_snapshot
  rw [receiver_uuid h.snapshot_id, receiver_seq h.seq_pos h.seq_le]
  simp only [List.length_map, parse_claims_wire h.claims]
  by_cases hlen : maximum < p.claims.length
  · simp only [if_pos hlen]
    rfl
  · simp only [if_neg hlen]
    by_cases hstart : ∀ c ∈ p.claims, StartsAlphanumeric c.jail
    · simp only [if_pos hstart]
      dsimp only [bind, Except.bind, pure, Except.pure]
      rw [claim_keys, if_neg (not_not.mpr h.keys)]
    · simp only [if_neg hstart]
      rfl

/-! ## Texts

Printing sorts the members and reading keeps the order of the text. So a payload that was printed
twice comes out as one that was printed once. -/

theorem plainChar_of_hex {c : Char} (h : is_hex_lower c = true) : PlainChar c := by
  obtain ⟨d, hd, rfl⟩ := exists_digitChar h
  interval_cases d <;> decide

theorem plainText_of_canonical {s : Text} (h : Canonical s) : PlainText s := by
  intro c hc
  rcases mem_canonical h hc with rfl | hhex
  · decide
  · exact plainChar_of_hex hhex

theorem plainText_of_canonicalIP {s : Text} (h : CanonicalIP s) : PlainText s := by
  obtain ⟨a, -, rfl⟩ := h
  intro c hc
  rcases IPAddress.mem_str hc with rfl | rfl | hhex
  · decide
  · decide
  · exact plainChar_of_hex hhex

theorem plainChar_of_id_start {c : Char} (h : is_id_start c = true) : PlainChar c := by
  simp only [is_id_start, Bool.or_eq_true, Bool.and_eq_true, decide_eq_true_eq] at h
  have hrange : 48 ≤ c.toNat ∧ c.toNat ≤ 122 := by
    rcases h with (⟨h1, h2⟩ | ⟨h1, h2⟩) | ⟨h1, h2⟩
    all_goals
      have h1' : _ ≤ c.toNat := h1
      have h2' : c.toNat ≤ _ := h2
      constructor
      · exact le_trans (by decide) h1'
      · exact le_trans h2' (by decide)
  refine ⟨by omega, by omega, ?_, ?_⟩
  · rintro rfl
    exact absurd h (by decide)
  · rintro rfl
    exact absurd h (by decide)

theorem plainText_of_validJail {s : Text} (h : ValidJail s) : PlainText s := by
  intro c hc
  have := h.chars c hc
  simp only [is_jail_char, Bool.or_eq_true, decide_eq_true_eq] at this
  rcases this with ((hstart | rfl) | rfl) | rfl
  · exact plainChar_of_id_start hstart
  · decide
  · decide
  · decide

theorem wire_seq {seq : ℕ} (h : seq ≤ max_seq) : Wire (.int seq) := by
  refine ⟨Int.natCast_nonneg seq, ?_⟩
  have hlen : (to_dec seq).length ≤ 19 := by
    rw [to_dec_length_le (by decide)]
    exact lt_of_le_of_lt h (by decide)
  rw [Int.natAbs_natCast]
  exact hlen.trans (by decide)

theorem wire_event {p : EventPayload} (h : p.Valid) : Wire (sort_keys p.wire) := by
  rw [sort_keys_event]
  have hop : PlainText p.op.text := by cases p.op <;> decide
  have hkeys : ["ban_id".toList, "event_id".toList, "expires_at".toList, "ip".toList,
      "jail".toList, "op".toList, "permanent".toList, "seq".toList].Nodup := by decide
  refine ⟨hkeys, ?_⟩
  simp only [WireItems]
  exact ⟨by decide, plainText_of_canonical h.ban_id, by decide, plainText_of_canonical h.event_id,
    by decide, trivial, by decide, plainText_of_canonicalIP h.ip, by decide,
    plainText_of_validJail h.jail, by decide, hop, by decide, trivial, by decide,
    wire_seq h.seq_le, trivial⟩

theorem wire_claim {c : SnapshotClaim} (h : c.Valid) : Wire (sort_keys c.wire) := by
  rw [sort_keys_claim]
  have hkeys : ["ban_id".toList, "expires_at".toList, "ip".toList, "jail".toList,
      "permanent".toList].Nodup := by decide
  refine ⟨hkeys, ?_⟩
  simp only [WireItems]
  exact ⟨by decide, plainText_of_canonical h.ban_id, by decide, trivial, by decide,
    plainText_of_canonicalIP h.ip, by decide, plainText_of_validJail h.jail, by decide, trivial,
    trivial⟩

theorem sort_keys_list_claims (claims : List SnapshotClaim) :
    sort_keys_list (claims.map SnapshotClaim.wire) = claims.map (fun c => sort_keys c.wire) := by
  induction claims with
  | nil => rfl
  | cons c cs ih => rw [List.map_cons, List.map_cons, sort_keys_list, ih]

theorem sort_keys_snapshot (p : SnapshotPayload) : sort_keys p.wire = .obj [
    ("claims".toList, .arr (p.claims.map (fun c => sort_keys c.wire))),
    ("seq".toList, .int p.seq), ("snapshot_id".toList, .str p.snapshot_id)] := by
  rw [← sort_keys_list_claims]
  rfl

theorem wire_claims {claims : List SnapshotClaim} (h : ∀ c ∈ claims, c.Valid) :
    WireList (claims.map (fun c => sort_keys c.wire)) := by
  induction claims with
  | nil => trivial
  | cons c cs ih =>
    exact ⟨wire_claim (h c List.mem_cons_self), ih (fun x hx => h x (List.mem_cons_of_mem _ hx))⟩

theorem wire_snapshot {p : SnapshotPayload} (h : p.Valid) : Wire (sort_keys p.wire) := by
  rw [sort_keys_snapshot]
  have hkeys : ["claims".toList, "seq".toList, "snapshot_id".toList].Nodup := by decide
  refine ⟨hkeys, ?_⟩
  simp only [WireItems]
  exact ⟨by decide, wire_claims h.claims, by decide, wire_seq h.seq_le, by decide,
    plainText_of_canonical h.snapshot_id, trivial⟩

theorem nesting_claims (claims : List SnapshotClaim) :
    nesting_list (claims.map (fun c => sort_keys c.wire)) ≤ 1 := by
  induction claims with
  | nil => exact Nat.zero_le _
  | cons c cs ih => exact max_le (le_of_eq rfl) ih

/-! ## Requests

The message of a payload as the worker sends it. An event travels in an envelope with one entry, a
snapshot is its own request. -/

/-- The value of the request a payload is sent in. -/
def Payload.request : Payload → Json
  | .event p => .obj [("events".toList, .arr [sort_keys p.wire])]
  | .snapshot p => sort_keys p.wire

def Payload.path : Payload → Path
  | .event _ => .events
  | .snapshot _ => .snapshot

/-- The message a payload is sent in. -/
def Payload.message (env : Env) (p : Payload) : Message := ⟨p.path, dumps env.floats p.request⟩

theorem Payload.wire_sorted {p : Payload} (h : p.Valid) : Wire (sort_keys p.wire) := by
  cases p with
  | event p => exact wire_event h
  | snapshot p => exact wire_snapshot h

theorem Payload.nesting_sorted (p : Payload) : nesting (sort_keys p.wire) ≤ 3 := by
  cases p with
  | event p => exact Nat.le_add_left 1 2
  | snapshot p =>
    have hclaims := nesting_claims p.claims
    simp only [Payload.wire, sort_keys_snapshot, nesting, nesting_items, Nat.max_zero]
    omega

theorem Payload.wire_request {p : Payload} (h : p.Valid) : Wire p.request := by
  cases p with
  | event p => exact ⟨List.nodup_singleton _, by decide, ⟨wire_event h, trivial⟩, trivial⟩
  | snapshot p => exact wire_snapshot h

theorem Payload.nesting_request (p : Payload) : nesting p.request ≤ 3 := by
  cases p with
  | event p => exact le_of_eq rfl
  | snapshot p => exact Payload.nesting_sorted (.snapshot p)

/-- Sorting the keys of a request again changes nothing. -/
theorem Payload.sort_keys_request (p : Payload) : sort_keys p.request = p.request := by
  cases p with
  | event p => rfl
  | snapshot p =>
    have hclaims : sort_keys_list (p.claims.map (fun c => sort_keys c.wire)) =
        p.claims.map (fun c => sort_keys c.wire) := by
      induction p.claims with
      | nil => rfl
      | cons c cs ih =>
        rw [List.map_cons, sort_keys_list, ih]
        rfl
    rw [Payload.request, sort_keys_snapshot]
    conv_rhs => rw [← hclaims]
    rfl

/-! ## From the outbox to the receiver

The whole way in one statement for each kind: what stands in the row is what the receiver
validates, checks against the allowed jails and counts. -/

theorem dict_of_pairs_append (items : List (Text × Json)) : ∀ {dict : List (Text × Json)},
    ((dict ++ items).map Prod.fst).Nodup →
      items.foldl (fun dict item =>
        if dict.any (fun kv => kv.1 = item.1) then
          dict.map (fun kv => if kv.1 = item.1 then item else kv)
        else dict ++ [item]) dict = dict ++ items := by
  induction items with
  | nil => intro dict _; simp
  | cons item items ih =>
    intro dict h
    have hnew : dict.any (fun kv => kv.1 = item.1) = false := by
      rw [List.any_eq_false]
      intro kv hkv
      rw [List.map_append, List.map_cons] at h
      have hdisjoint := (List.nodup_append.mp h).2.2 kv.1 (List.mem_map_of_mem hkv) item.1
        List.mem_cons_self
      simpa using hdisjoint
    have happend : dict ++ item :: items = (dict ++ [item]) ++ items := by simp
    rw [List.foldl_cons, if_neg (by rw [hnew]; decide), happend]
    rw [happend] at h
    exact ih h

theorem plain_decoder_keepsObjects (env : Env) : (plain_decoder env).KeepsObjects := by
  intro items h
  simp only [plain_decoder, dict_of_pairs]
  rw [dict_of_pairs_append items (by simpa using h), List.nil_append]

/-- The text of a payload is read back as the payload with its keys sorted. -/
theorem loads_json_bytes (env : Env) {p : Payload} (h : p.Valid) :
    loads (plain_decoder env) (_json_bytes env.floats p.wire) = .ok (sort_keys p.wire) :=
  loads_dumps _ _ (plain_decoder_keepsObjects env) (Payload.wire_sorted h)
    ((Payload.nesting_sorted p).trans env.max_depth_ge)

/-- The row holds the payload. `attempts` and the times vary while the row waits. -/
structure Holds (env : Env) (row : OutboxRow) (p : Payload) : Prop where
  seq : row.seq = p.seq
  kind : row.kind = p.kind
  event_id : row.event_id = p.id
  payload : row.payload = _json_bytes env.floats p.wire

theorem row_request_eq {env : Env} {row : OutboxRow} {p : Payload} (hrow : Holds env row p)
    (h : p.Valid) : row_request env row = .ok p.request := by
  rw [row_request, hrow.payload, loads_json_bytes env h]
  dsimp only
  rw [hrow.kind]
  cases p <;> rfl

/-- A request is refused before it is sent exactly when its text is too long. -/
theorem send_request_eq (env : Env) (p : Payload) :
    send_request env p.request =
      if MAX_EVENT_BYTES < (p.message env).body.length then
        value_error "request is too large".toList
      else .ok (p.message env) := by
  have hbody : _json_bytes env.floats p.request = (p.message env).body := by
    rw [_json_bytes, Payload.sort_keys_request]
    rfl
  cases p with
  | event p =>
    have hevents : has_key (Payload.event p).request "events".toList = true := rfl
    have hid : has_key (Payload.event p).request "snapshot_id".toList = false := rfl
    simp only [send_request, hevents, hid, Bool.or_true, if_true, hbody]
    rfl
  | snapshot p =>
    have hid : has_key (Payload.snapshot p).request "snapshot_id".toList = true := by
      rw [Payload.request, sort_keys_snapshot]
      rfl
    simp only [send_request, hid, Bool.true_or, if_true, hbody]
    rfl

/-- The receiver reads the request the sender meant. -/
theorem body_message {env : Env} {p : Payload} (h : p.Valid) (server : Server.Env)
    (hsize : (p.message env).body.length ≤ server.limits.body_bytes) :
    Server._body server (p.message env).body = .ok p.request := by
  rw [Server._body, if_neg (not_lt.mpr hsize)]
  have hloads : loads (Server.strict_decoder server.store.floats server.max_depth)
      (p.message env).body = .ok p.request :=
    loads_dumps _ _ (Server.strict_decoder_keepsObjects _ _) (Payload.wire_request h)
      ((Payload.nesting_request p).trans server.max_depth_ge)
  rw [hloads]

/-- The request a payload stands for. -/
def Payload.store_request : Payload → Store.Request
  | .event p => .events [p.event]
  | .snapshot p => .snapshot p.snapshot_id p.seq (p.claims.map SnapshotClaim.claim)

/-- The jails a payload names. -/
def Payload.jails : Payload → List Text
  | .event p => [p.jail]
  | .snapshot p => p.claims.map SnapshotClaim.jail

/-- The payload keeps to the receiver's limit on the number of events or claims. -/
def Payload.Fits (limits : Server.Limits) : Payload → Prop
  | .event _ => 1 ≤ limits.events_per_request
  | .snapshot p => p.claims.length ≤ limits.claims_per_client

theorem _allowed_eq_ok {client : Server.ClientConfig} {jails : List Text} :
    Server._allowed client jails = .ok () ↔ ∀ jail ∈ jails, jail ∈ client.allowed_jails := by
  unfold Server._allowed
  split
  · rename_i h
    simp only [List.any_eq_true, decide_eq_true_eq] at h
    obtain ⟨jail, hmem, hnot⟩ := h
    constructor
    · intro h
      cases h
    · exact fun h => absurd (h jail hmem) hnot
  · rename_i h
    simp only [List.any_eq_true, decide_eq_true_eq] at h
    push Not at h
    exact ⟨fun _ => h, fun _ => rfl⟩

theorem validate_events_single (raw : Json) (maximum : ℕ) :
    validate_events (.arr [raw]) maximum =
      if maximum < 1 then invalid "too many events".toList
      else (parse_event raw).map (fun e => [e]) := by
  unfold validate_events
  by_cases hmax : maximum < 1
  · rw [if_pos hmax]
    simp only [List.length_singleton, if_pos hmax]
    rfl
  · rw [if_neg hmax]
    simp only [List.length_singleton, if_neg hmax, List.mapM_cons, List.mapM_nil]
    cases parse_event raw with
    | error e => rfl
    | ok e =>
      have hinc : seqs_increase [e] := List.isChain_singleton _
      have hnodup : ([e].map Event.event_id).Nodup := List.nodup_singleton _
      dsimp only [bind, Except.bind, pure, Except.pure]
      rw [if_neg (not_not.mpr hinc), if_neg (not_not.mpr hnodup)]
      rfl

/-- The receiver accepts the request of a valid payload, as what it stands for, when each
jail is allowed and starts with a letter or a digit and the count is within the limit. It
refuses every other one. -/
theorem read_request_snapshot (p : SnapshotPayload) (server : Server.Env)
    (client : Server.ClientConfig) :
    Server.read_request server client .snapshot (Payload.snapshot p).request = (do
      let (snapshot_id, seq, claims) ← (validate_snapshot (.str p.snapshot_id) (.int p.seq)
        (.arr (p.claims.map (fun c => sort_keys c.wire)))
        server.limits.claims_per_client).mapError .raised
      Server._allowed client (claims.map Claim.jail)
      return .snapshot snapshot_id seq claims) := by
  rw [Payload.request, sort_keys_snapshot]
  rfl

theorem read_request_eq_ok {p : Payload} (h : p.Valid) (server : Server.Env)
    (client : Server.ClientConfig) (request : Store.Request) :
    Server.read_request server client p.path p.request = .ok request ↔
      request = p.store_request ∧ p.Fits server.limits ∧
        ∀ jail ∈ p.jails, StartsAlphanumeric jail ∧ jail ∈ client.allowed_jails := by
  cases p with
  | event p =>
    -- the checks in the source's order: the number of events, the jail's form, the client's jails
    have hread : Server.read_request server client .events (Payload.event p).request = (do
        let events ← (validate_events (.arr [sort_keys p.wire])
          server.limits.events_per_request).mapError .raised
        Server._allowed client (events.map Event.jail)
        return .events events) := rfl
    rw [Payload.path, hread, validate_events_single, parse_event_wire h]
    simp only [Payload.Fits, Payload.jails, List.mem_singleton, forall_eq, Payload.store_request]
    by_cases hmax : server.limits.events_per_request < 1
    · rw [if_pos hmax]
      constructor
      · intro h
        cases h
      · rintro ⟨-, hfits, -⟩
        omega
    rw [if_neg hmax]
    by_cases hstart : StartsAlphanumeric p.jail
    · rw [if_pos hstart]
      dsimp only [Except.map, Except.mapError, bind, Except.bind, List.map]
      cases hallowed : Server._allowed client [p.event.jail] with
      | error e =>
        have hnot : ¬ p.jail ∈ client.allowed_jails := by
          intro hmem
          rw [_allowed_eq_ok.mpr (by simpa [EventPayload.event] using hmem)] at hallowed
          cases hallowed
        simp [hnot]
      | ok _ =>
        have hmem := _allowed_eq_ok.mp hallowed p.jail (List.mem_singleton.mpr rfl)
        have hfits : 1 ≤ server.limits.events_per_request := by omega
        simp [hmem, hstart, hfits, pure, Except.pure, eq_comm]
    · rw [if_neg hstart]
      simp [Except.map, Except.mapError, bind, Except.bind, invalid, hstart]
  | snapshot p =>
    rw [Payload.path, read_request_snapshot, validate_snapshot_wire h]
    simp only [Payload.Fits, Payload.jails, List.forall_mem_map, Payload.store_request]
    -- the same checks, each over all the claims
    have hjails : (p.claims.map SnapshotClaim.claim).map Claim.jail =
        p.claims.map SnapshotClaim.jail := by
      rw [List.map_map]
      rfl
    by_cases hmax : server.limits.claims_per_client < p.claims.length
    · rw [if_pos hmax]
      constructor
      · intro h
        cases h
      · rintro ⟨-, hfits, -⟩
        omega
    rw [if_neg hmax]
    by_cases hstart : ∀ c ∈ p.claims, StartsAlphanumeric c.jail
    · rw [if_pos hstart]
      dsimp only [Except.mapError, bind, Except.bind]
      rw [hjails]
      cases hallowed : Server._allowed client (p.claims.map SnapshotClaim.jail) with
      | error e =>
        have hnot : ¬ ∀ c ∈ p.claims, c.jail ∈ client.allowed_jails := by
          intro hmem
          rw [_allowed_eq_ok.mpr (by simpa using hmem)] at hallowed
          cases hallowed
        simp only [reduceCtorEq, false_iff, not_and]
        exact fun _ _ h => hnot (fun c hc => (h c hc).2)
      | ok _ =>
        have hmem := _allowed_eq_ok.mp hallowed
        rw [List.forall_mem_map] at hmem
        have hall : ∀ c ∈ p.claims, StartsAlphanumeric c.jail ∧ c.jail ∈ client.allowed_jails :=
          fun c hc => ⟨hstart c hc, hmem c hc⟩
        have hfits : p.claims.length ≤ server.limits.claims_per_client := not_lt.mp hmax
        simp only [pure, Except.pure, Except.ok.injEq, hfits, true_and]
        exact ⟨fun h => ⟨h.symm, hall⟩, fun h => h.1.symm⟩
    · rw [if_neg hstart]
      constructor
      · intro h
        cases h
      · rintro ⟨-, -, h⟩
        exact absurd (fun c hc => (h c hc).1) hstart

end F2bguard.Sender
