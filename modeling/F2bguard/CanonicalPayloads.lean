/-
Is what the receiver accepts canonical?

`parse_event` and `parse_claim` take several spellings of a UUID, of an address and of a time.
What they return is written back by `wire()`, and reading that gives the same value again
(`event_again_iff`, `claim_again_iff`), with one exception: a time given as a number is checked to
lie between the epoch and the end of the year 9999, a time given as a text is not. A text can name
an instant outside, and the receiver would then refuse its own record.

Two accepted payloads with the same hash say the same in either case, as far as the hash function
tells their texts apart (`event_of_hash`, `snapshot_of_hash`): the printed text determines the
value.
-/
import F2bguard.Desired
import F2bguard.Doubles
import F2bguard.PrintedJson

set_option autoImplicit false

namespace F2bguard.Claims

open F2bguard.PyText F2bguard.PyJson F2bguard.Datetime F2bguard.Uuid
open F2bguard.Store (bind_eq_ok Env payload_hash snapshot_payload)
open F2bguard.Sender (CanonicalIP receiver_uuid receiver_seq receiver_ip parse_op_text
  plainText_of_canonical plainText_of_canonicalIP plainChar_of_id_start)

/-! ## Times

The receiver takes a time in three forms and keeps the number of seconds. The check of the range
is made for a number only, and what a text names is not bounded by it. -/

/-- What `_expires_at` hands to `fromisoformat`. -/
def zulu (text : Text) : Text :=
  if text.getLast? = some 'Z' then text.dropLast ++ "+00:00".toList else text

/-- The seconds are within the range of `expires_at`. -/
def InRange (q : ℚ) : Prop := 0 ≤ q ∧ q ≤ max_expires_at

instance : DecidablePred InRange := fun q => inferInstanceAs (Decidable (0 ≤ q ∧ q ≤ max_expires_at))

/-- If the value is the text of a time with an offset, it names an instant between the epoch and
the end of the year 9999. -/
def TextInRange (value : Json) : Prop :=
  ∀ text parsed offset, value = .str text → fromisoformat (zulu text) = some parsed →
    parsed.utcoffset = some offset →
      0 ≤ parsed.local_us - offset ∧ parsed.local_us - offset ≤ last_microsecond

theorem expires_in_range_ok {x : PyFloat} {expires : Option ℚ} (h : expires_in_range x = .ok expires) :
    ∃ q, expires = some q ∧ InRange q := by
  unfold expires_in_range invalid at h
  split at h
  · split at h
    · rename_i q hrange
      cases h
      exact ⟨q, rfl, hrange⟩
    · cases h
  · cases h

/-- An accepted time is within the range unless it was given as a text of one outside. -/
theorem expires_in_range_iff {value : Json} {expires : Option ℚ} (h : _expires_at value = .ok expires) :
    (∀ q, expires = some q → InRange q) ↔ TextInRange value := by
  have hnumber : (∃ q, expires = some q ∧ InRange q) → (∀ text, value ≠ .str text) →
      ((∀ q, expires = some q → InRange q) ↔ TextInRange value) := by
    rintro ⟨q, rfl, hq⟩ hvalue
    constructor
    · intro _ text parsed offset htext
      exact absurd htext (hvalue text)
    · rintro - q' hq'
      cases hq'
      exact hq
  -- only a text can name a time outside the range
  cases value with
  | null =>
    cases h
    exact ⟨fun _ text _ _ htext => (by cases htext), fun _ q hq => (by cases hq)⟩
  | int n =>
    unfold _expires_at at h
    dsimp only at h
    split at h
    · cases h
    · exact hnumber (expires_in_range_ok h) (fun text htext => (by cases htext))
  | float x => exact hnumber (expires_in_range_ok h) (fun text htext => (by cases htext))
  | str text =>
    unfold _expires_at invalid at h
    dsimp only at h
    split at h
    · cases h
    · rename_i parsed hparsed
      split at h
      · cases h
      · rename_i offset hoffset
        cases h
        constructor
        · intro hall text' parsed' offset' htext hparsed' hoffset'
          cases htext
          rw [zulu, hparsed] at hparsed'
          cases hparsed'
          rw [hoffset] at hoffset'
          cases hoffset'
          exact (timestamp_in_range_iff _ _).mp (hall _ rfl)
        · intro hrange q hq
          cases hq
          exact (timestamp_in_range_iff _ _).mpr (hrange text parsed offset rfl hparsed hoffset)
  | bool b => cases h
  | arr xs => cases h
  | obj items => cases h

/-- A time is read back from the wire exactly when it is within the range. -/
theorem expires_again_iff {expires : Option ℚ} :
    _expires_at (wire_expires expires) = .ok expires ↔ ∀ q, expires = some q → InRange q := by
  cases expires with
  | none => exact ⟨fun _ q hq => (by cases hq), fun _ => rfl⟩
  | some q =>
    rw [show _expires_at (wire_expires (some q)) = expires_in_range (.finite q) from rfl]
    constructor
    · intro h q' hq'
      obtain ⟨_, hsame, hrange⟩ := expires_in_range_ok h
      cases hsame
      cases hq'
      exact hrange
    · intro h
      exact if_pos (h q rfl)

/-! ## The other fields

Each is stored in the form the library or the validator prints, and that form is accepted again.
-/

theorem uuid_ok {value : Json} {name s : Text} (h : _uuid value name = .ok s) : Canonical s := by
  unfold _uuid invalid at h
  split at h
  · split at h
    · cases h
    · rename_i n hn
      split at h
      · cases h
      · cases h
        exact canonical_uuid_str (uuid_int_lt hn)
  · cases h

theorem seq_ok {value : Json} {seq : ℕ} (h : _seq value = .ok seq) : 1 ≤ seq ∧ seq ≤ max_seq := by
  unfold _seq invalid at h
  split at h
  · split at h
    · cases h
      omega
    · cases h
  · cases h

theorem identifier_ok {value : Json} {name s : Text} (h : _identifier value name = .ok s) :
    id_re s = true := by
  unfold _identifier invalid at h
  split at h
  · split at h
    · rename_i hre
      cases h
      exact hre
    · cases h
  · cases h

theorem identifier_again {s : Text} (h : id_re s = true) (name : Text) :
    _identifier (.str s) name = .ok s := if_pos h

theorem permanent_again {op : Op} {value : Json} {permanent : Option Bool}
    (h : parse_permanent op value = .ok permanent) :
    parse_permanent op (wire_permanent permanent) = .ok permanent := by
  cases permanent with
  | some b => cases op <;> rfl
  | none =>
    cases op with
    | unban => rfl
    | ban => cases value <;> cases h

/-! ## Events and claims

Reading, writing and reading again. The fields that were accepted are accepted again in their
canonical form, and the time decides. -/

/-- What `wire()` writes is read as the same event, and every field has its canonical form. -/
structure CanonicalEvent (e : Event) : Prop where
  again : parse_event e.wire = .ok e
  expires_at : ∀ q, e.expires_at = some q → InRange q
  seq : 1 ≤ e.seq ∧ e.seq ≤ 2 ^ 63 - 1
  event_id : Canonical e.event_id
  ban_id : Canonical e.ban_id
  ip : CanonicalIP e.ip

/-- The same for a claim of a snapshot. -/
structure CanonicalClaim (c : Claim) : Prop where
  again : parse_claim c.wire = .ok c
  expires_at : ∀ q, c.expires_at = some q → InRange q
  ban_id : Canonical c.ban_id
  ip : CanonicalIP c.ip

/-- `raw.get("expires_at")` -/
def expires_field : Json → Json
  | .obj items => field items "expires_at".toList
  | _ => .null

/-- What the fields of an accepted event were read as. -/
structure EventFields (raw : Json) (e : Event) : Prop where
  expires_at : _expires_at (expires_field raw) = .ok e.expires_at
  permanent : ∃ value, parse_permanent e.op value = .ok e.permanent
  seq : 1 ≤ e.seq ∧ e.seq ≤ max_seq
  event_id : Canonical e.event_id
  jail : id_re e.jail = true
  ban_id : Canonical e.ban_id
  ip : CanonicalIP e.ip

theorem parse_event_fields {raw : Json} {e : Event} (h : parse_event raw = .ok e) :
    EventFields raw e := by
  cases raw with
  | obj items =>
    obtain ⟨_, -, h⟩ := bind_eq_ok.mp h
    obtain ⟨op, hop, h⟩ := bind_eq_ok.mp h
    obtain ⟨permanent, hpermanent, h⟩ := bind_eq_ok.mp h
    obtain ⟨expires, hexpires, h⟩ := bind_eq_ok.mp h
    obtain ⟨event_id, hevent_id, h⟩ := bind_eq_ok.mp h
    obtain ⟨seq, hseq, h⟩ := bind_eq_ok.mp h
    obtain ⟨jail, hjail, h⟩ := bind_eq_ok.mp h
    obtain ⟨ban_id, hban_id, h⟩ := bind_eq_ok.mp h
    obtain ⟨ip, hip, h⟩ := bind_eq_ok.mp h
    cases h
    exact ⟨hexpires, ⟨_, hpermanent⟩, seq_ok hseq, uuid_ok hevent_id, identifier_ok hjail,
      uuid_ok hban_id, Store._ip_canonical hip⟩
  | _ => cases h

/-- What the fields of an accepted claim were read as. -/
structure ClaimFields (raw : Json) (c : Claim) : Prop where
  expires_at : _expires_at (expires_field raw) = .ok c.expires_at
  jail : id_re c.jail = true
  ban_id : Canonical c.ban_id
  ip : CanonicalIP c.ip

theorem parse_claim_fields {raw : Json} {c : Claim} (h : parse_claim raw = .ok c) :
    ClaimFields raw c := by
  cases raw with
  | obj items =>
    obtain ⟨_, -, h⟩ := bind_eq_ok.mp h
    dsimp only at h
    split at h
    · obtain ⟨permanent, -, h⟩ := bind_eq_ok.mp h
      obtain ⟨expires, hexpires, h⟩ := bind_eq_ok.mp h
      obtain ⟨jail, hjail, h⟩ := bind_eq_ok.mp h
      obtain ⟨ban_id, hban_id, h⟩ := bind_eq_ok.mp h
      obtain ⟨ip, hip, h⟩ := bind_eq_ok.mp h
      cases h
      exact ⟨hexpires, identifier_ok hjail, uuid_ok hban_id, Store._ip_canonical hip⟩
    · cases h
  | _ => cases h

theorem event_again_iff {raw : Json} {e : Event} (h : EventFields raw e) :
    parse_event e.wire = .ok e ↔ ∀ q, e.expires_at = some q → InRange q := by
  have hop : parse_op (.str e.op.text) = .ok e.op := parse_op_text e.op
  have hpermanent : parse_permanent e.op (wire_permanent e.permanent) = .ok e.permanent := by
    obtain ⟨value, hvalue⟩ := h.permanent
    exact permanent_again hvalue
  have hparse : parse_event e.wire = (do
      let op ← parse_op (.str e.op.text)
      let permanent ← parse_permanent op (wire_permanent e.permanent)
      let expires ← _expires_at (wire_expires e.expires_at)
      let event_id ← _uuid (.str e.event_id) "event_id".toList
      let seq ← _seq (.int e.seq)
      let jail ← _identifier (.str e.jail) "jail".toList
      let ban_id ← _uuid (.str e.ban_id) "ban_id".toList
      let ip ← _ip (.str e.ip)
      return ⟨event_id, seq, op, jail, ban_id, ip, permanent, expires⟩) := rfl
  -- every member but the time is read again as it was stored
  rw [hparse, hop, ← expires_again_iff]
  dsimp only [bind, Except.bind]
  rw [hpermanent, receiver_uuid h.event_id, receiver_seq h.seq.1 h.seq.2, identifier_again h.jail,
    receiver_uuid h.ban_id, receiver_ip h.ip]
  dsimp only
  cases hexpires : _expires_at (wire_expires e.expires_at) with
  | error raised => exact ⟨fun h => (by cases h), fun h => (by cases h)⟩
  | ok expires =>
    constructor
    · intro hsame
      exact congrArg Except.ok (congrArg Event.expires_at (Except.ok.inj hsame))
    · intro hsame
      rw [Except.ok.inj hsame]
      rfl

theorem claim_again_iff {raw : Json} {c : Claim} (h : ClaimFields raw c) :
    parse_claim c.wire = .ok c ↔ ∀ q, c.expires_at = some q → InRange q := by
  have hparse : parse_claim c.wire = (do
      let expires ← _expires_at (wire_expires c.expires_at)
      let jail ← _identifier (.str c.jail) "jail".toList
      let ban_id ← _uuid (.str c.ban_id) "ban_id".toList
      let ip ← _ip (.str c.ip)
      return ⟨jail, ban_id, ip, c.permanent, expires⟩) := rfl
  rw [hparse, ← expires_again_iff]
  dsimp only [bind, Except.bind]
  rw [identifier_again h.jail, receiver_uuid h.ban_id, receiver_ip h.ip]
  dsimp only
  cases hexpires : _expires_at (wire_expires c.expires_at) with
  | error raised => exact ⟨fun h => (by cases h), fun h => (by cases h)⟩
  | ok expires =>
    constructor
    · intro hsame
      exact congrArg Except.ok (congrArg Claim.expires_at (Except.ok.inj hsame))
    · intro hsame
      rw [Except.ok.inj hsame]
      rfl

/-! ## What is hashed

The text that is hashed is printed with sorted keys. It determines the payload, because the
payloads have their keys fixed by their kind. -/

theorem plainText_of_id_re {s : Text} (h : id_re s = true) : PlainText s := by
  cases s with
  | nil => cases h
  | cons c cs =>
    simp only [id_re, Bool.and_eq_true, List.all_eq_true] at h
    intro d hd
    rcases List.mem_cons.mp hd with rfl | hd
    · exact plainChar_of_id_start h.1.1
    · have hchar := h.1.2 d hd
      simp only [is_id_char, Bool.or_eq_true, decide_eq_true_eq] at hchar
      rcases hchar with (((hstart | rfl) | rfl) | rfl) | rfl
      · exact plainChar_of_id_start hstart
      · decide
      · decide
      · decide
      · decide

theorem clear_expires (expires : Option ℚ) : Clear (wire_expires expires) := by
  cases expires with
  | none => trivial
  | some q => exact ⟨q, rfl⟩

theorem clear_permanent (permanent : Option Bool) : Clear (wire_permanent permanent) := by
  cases permanent with
  | none => trivial
  | some b => trivial

theorem sort_keys_event_wire (e : Event) : sort_keys e.wire = .obj [
    ("ban_id".toList, .str e.ban_id), ("event_id".toList, .str e.event_id),
    ("expires_at".toList, wire_expires e.expires_at), ("ip".toList, .str e.ip),
    ("jail".toList, .str e.jail), ("op".toList, .str e.op.text),
    ("permanent".toList, wire_permanent e.permanent), ("seq".toList, .int e.seq)] := by
  obtain ⟨event_id, seq, op, jail, ban_id, ip, permanent, expires_at⟩ := e
  cases permanent with
  | none => cases expires_at <;> rfl
  | some b => cases expires_at <;> rfl

theorem sort_keys_claim_wire (c : Claim) : sort_keys c.wire = .obj [
    ("ban_id".toList, .str c.ban_id), ("expires_at".toList, wire_expires c.expires_at),
    ("ip".toList, .str c.ip), ("jail".toList, .str c.jail),
    ("permanent".toList, .bool c.permanent)] := by
  obtain ⟨jail, ban_id, ip, permanent, expires_at⟩ := c
  cases expires_at <;> rfl

theorem sort_keys_claims (claims : List Claim) :
    sort_keys_list (claims.map Claim.wire) = claims.map (fun c => sort_keys c.wire) := by
  induction claims with
  | nil => rfl
  | cons c cs ih => rw [List.map_cons, List.map_cons, sort_keys_list, ih]

theorem sort_keys_snapshot_payload (snapshot_id : Text) (seq : ℕ) (claims : List Claim) :
    sort_keys (snapshot_payload snapshot_id seq claims) = .obj [
      ("claims".toList, .arr (claims.map (fun c => sort_keys c.wire))),
      ("seq".toList, .int seq), ("snapshot_id".toList, .str snapshot_id)] := by
  rw [← sort_keys_claims]
  rfl

theorem clear_event {raw : Json} {e : Event} (h : EventFields raw e) : Clear (sort_keys e.wire) := by
  have hop : PlainText e.op.text := by cases e.op <;> decide
  rw [sort_keys_event_wire]
  exact ⟨by decide, plainText_of_canonical h.ban_id, by decide, plainText_of_canonical h.event_id,
    by decide, clear_expires _, by decide, plainText_of_canonicalIP h.ip, by decide,
    plainText_of_id_re h.jail, by decide, hop, by decide, clear_permanent _, by decide, trivial,
    trivial⟩

theorem clear_claim {raw : Json} {c : Claim} (h : ClaimFields raw c) : Clear (sort_keys c.wire) := by
  rw [sort_keys_claim_wire]
  exact ⟨by decide, plainText_of_canonical h.ban_id, by decide, clear_expires _, by decide,
    plainText_of_canonicalIP h.ip, by decide, plainText_of_id_re h.jail, by decide, trivial, trivial⟩

theorem clear_claims {claims : List Claim} (h : ∀ c ∈ claims, ∃ raw, ClaimFields raw c) :
    ClearList (claims.map (fun c => sort_keys c.wire)) := by
  induction claims with
  | nil => trivial
  | cons c cs ih =>
    obtain ⟨⟨raw, hc⟩, hcs⟩ := List.forall_mem_cons.mp h
    exact ⟨clear_claim hc, ih hcs⟩

theorem op_text_injective : Function.Injective Op.text := by
  intro op op' h
  cases op <;> cases op' <;> first | rfl | exact absurd h (by decide)

theorem wire_expires_injective : Function.Injective wire_expires := by
  intro a b h
  cases a <;> cases b <;> cases h <;> rfl

theorem wire_permanent_injective : Function.Injective wire_permanent := by
  intro a b h
  cases a <;> cases b <;> cases h <;> rfl

theorem event_wire_injective {e e' : Event} (h : sort_keys e.wire = sort_keys e'.wire) : e = e' := by
  rw [sort_keys_event_wire, sort_keys_event_wire] at h
  simp only [Json.obj.injEq, List.cons.injEq, Prod.mk.injEq, true_and, and_true, Json.str.injEq,
    Json.int.injEq, Nat.cast_inj] at h
  obtain ⟨hban, hid, hexpires, hip, hjail, hop, hpermanent, hseq⟩ := h
  obtain ⟨event_id, seq, op, jail, ban_id, ip, permanent, expires_at⟩ := e
  obtain ⟨event_id', seq', op', jail', ban_id', ip', permanent', expires_at'⟩ := e'
  simp only [Event.mk.injEq]
  exact ⟨hid, hseq, op_text_injective hop, hjail, hban, hip, wire_permanent_injective hpermanent,
    wire_expires_injective hexpires⟩

theorem claim_wire_injective : Function.Injective (fun c : Claim => sort_keys c.wire) := by
  intro c c' h
  dsimp only at h
  rw [sort_keys_claim_wire, sort_keys_claim_wire] at h
  simp only [Json.obj.injEq, List.cons.injEq, Prod.mk.injEq, true_and, and_true, Json.str.injEq,
    Json.bool.injEq] at h
  obtain ⟨hban, hexpires, hip, hjail, hpermanent⟩ := h
  obtain ⟨jail, ban_id, ip, permanent, expires_at⟩ := c
  obtain ⟨jail', ban_id', ip', permanent', expires_at'⟩ := c'
  simp only [Claim.mk.injEq]
  exact ⟨hjail, hban, hip, hpermanent, wire_expires_injective hexpires⟩

/-- The payloads whose hashes are stored: those of accepted events and snapshots. -/
inductive Hashed : Json → Prop
  | event {raw : Json} {e : Event} (h : parse_event raw = .ok e) : Hashed e.wire
  | snapshot {raw_id raw_seq raw : Json} {maximum seq : ℕ} {snapshot_id : Text}
      {claims : List Claim}
      (h : validate_snapshot raw_id raw_seq raw maximum = .ok (snapshot_id, seq, claims)) :
      Hashed (snapshot_payload snapshot_id seq claims)

theorem validate_snapshot_id {raw_id raw_seq raw : Json} {maximum : ℕ}
    {result : Text × ℕ × List Claim} (h : validate_snapshot raw_id raw_seq raw maximum = .ok result) :
    Canonical result.1 := by
  unfold validate_snapshot at h
  obtain ⟨parsed_id, hid, h⟩ := bind_eq_ok.mp h
  obtain ⟨parsed_seq, -, h⟩ := bind_eq_ok.mp h
  cases raw with
  | arr raws =>
    dsimp only at h
    split at h
    · cases h
    · obtain ⟨claims, -, h⟩ := bind_eq_ok.mp h
      split at h
      · cases h
      · cases h
        exact uuid_ok hid
  | _ => cases h

theorem Hashed.clear {v : Json} (h : Hashed v) : Clear (sort_keys v) := by
  cases h with
  | event h => exact clear_event (parse_event_fields h)
  | snapshot h =>
    obtain ⟨raws, hraws⟩ := Store.validate_snapshot_parsed h
    have hclaims := Store.forall_of_mapM (P := fun c => ∃ raw, ClaimFields raw c)
      (fun raw _ hc => ⟨raw, parse_claim_fields hc⟩) hraws
    rw [sort_keys_snapshot_payload]
    exact ⟨by decide, clear_claims hclaims, by decide, trivial, by decide,
      plainText_of_canonical (validate_snapshot_id h), trivial⟩

/-- Sorting the keys loses nothing of a hashed payload. -/
theorem Hashed.sort_keys_injective {v v' : Json} (h : Hashed v) (h' : Hashed v')
    (heq : sort_keys v = sort_keys v') : v = v' := by
  cases h with
  | @event raw e h =>
    cases h' with
    | @event raw' e' h' => rw [event_wire_injective heq]
    | snapshot h' =>
      rw [sort_keys_event_wire, sort_keys_snapshot_payload] at heq
      simp at heq
  | @snapshot _ _ _ _ seq snapshot_id claims h =>
    cases h' with
    | event h' =>
      rw [sort_keys_event_wire, sort_keys_snapshot_payload] at heq
      simp at heq
    | @snapshot _ _ _ _ seq' snapshot_id' claims' h' =>
      rw [sort_keys_snapshot_payload, sort_keys_snapshot_payload] at heq
      simp only [Json.obj.injEq, List.cons.injEq, Prod.mk.injEq, true_and, and_true,
        Json.str.injEq, Json.int.injEq, Nat.cast_inj, Json.arr.injEq] at heq
      obtain ⟨hclaims, rfl, rfl⟩ := heq
      rw [List.map_injective_iff.mpr claim_wire_injective hclaims]

/-- The text that is hashed. -/
def hashed_text (env : Env) (value : Json) : Text := dumps env.floats (sort_keys value)

/-- Payloads of the same hash are the same, if the hash function tells their texts apart. -/
theorem Hashed.of_hash {env : Env} (hft : env.floats.Faithful) {v v' : Json} (h : Hashed v)
    (h' : Hashed v') (hsha : env.sha256 (hashed_text env v) = env.sha256 (hashed_text env v') →
      hashed_text env v = hashed_text env v')
    (hhash : payload_hash env v = payload_hash env v') : v = v' :=
  h.sort_keys_injective h' (dumps_injective hft h.clear h'.clear (hsha hhash))

/-! ## The payloads the receiver accepts

Both halves together, for events and for claims. -/

theorem canonical_event_iff {raw : Json} {e : Event} (h : parse_event raw = .ok e) :
    CanonicalEvent e ↔ TextInRange (expires_field raw) := by
  have hfields := parse_event_fields h
  rw [← expires_in_range_iff hfields.expires_at]
  constructor
  · intro hcanonical
    exact hcanonical.expires_at
  · intro hrange
    exact ⟨(event_again_iff hfields).mpr hrange, hrange, hfields.seq, hfields.event_id,
      hfields.ban_id, hfields.ip⟩

theorem canonical_claim_iff {raw : Json} {c : Claim} (h : parse_claim raw = .ok c) :
    CanonicalClaim c ↔ TextInRange (expires_field raw) := by
  have hfields := parse_claim_fields h
  rw [← expires_in_range_iff hfields.expires_at]
  constructor
  · intro hcanonical
    exact hcanonical.expires_at
  · intro hrange
    exact ⟨(claim_again_iff hfields).mpr hrange, hrange, hfields.ban_id, hfields.ip⟩

/-- **When an accepted payload is canonical.** An accepted event or claim is canonical exactly
when its time, if it is a text, lies between the epoch and the end of the year 9999. The stored
hashes tell accepted payloads apart as far as the hash function does. -/
theorem accepted_canonical_iff (env : Env) :
    (∀ raw e, parse_event raw = .ok e → (CanonicalEvent e ↔ TextInRange (expires_field raw))) ∧
    (∀ raw c, parse_claim raw = .ok c → (CanonicalClaim c ↔ TextInRange (expires_field raw))) ∧
    (env.floats.Faithful → ∀ v v', Hashed v → Hashed v' →
      (env.sha256 (hashed_text env v) = env.sha256 (hashed_text env v') →
        hashed_text env v = hashed_text env v') →
      payload_hash env v = payload_hash env v' → v = v') :=
  ⟨fun _ _ h => canonical_event_iff h, fun _ _ h => canonical_claim_iff h,
    fun hft _ _ h h' hsha hhash => h.of_hash hft h' hsha hhash⟩

/-! A ban with a time, given by its offset or by its timestamp, and one before the epoch. -/

def timed_event (event_id expires_at : Json) : Json := .obj [
  ("event_id".toList, event_id), ("seq".toList, .int 7), ("op".toList, .str "ban".toList),
  ("jail".toList, .str "sshd".toList),
  ("ban_id".toList, .str "4c9184f3-7cf4-4f9d-8f4e-6b9a3b0d5c02".toList),
  ("ip".toList, .str "2001:DB8:0:0::1".toList), ("permanent".toList, .bool false),
  ("expires_at".toList, expires_at)]

/-- What is stored of such an event. -/
def timed (expires_at : ℚ) : Event :=
  ⟨"4c9184f3-7cf4-4f9d-8f4e-6b9a3b0d5c01".toList, 7, .ban, "sshd".toList,
    "4c9184f3-7cf4-4f9d-8f4e-6b9a3b0d5c02".toList, "2001:db8::1".toList, some false, some expires_at⟩

/-- The text of the one float that is hashed below, and some text for each other. -/
def sample_repr (q : ℚ) : Text :=
  if q = 1700000000 then "1700000000.0".toList else dumps_int q.num ++ 'e' :: to_dec q.den

theorem sample_repr_faithful (parse : Text → PyFloat) : (FloatText.mk sample_repr parse).Faithful where
  chars := by
    intro q c hc
    dsimp only [sample_repr] at hc
    split at hc
    · revert c
      decide
    · rcases List.mem_append.mp hc with hc | hc
      · exact number_char_of_int (dumps_int_chars _ c hc)
      · rcases List.mem_cons.mp hc with rfl | hc
        · decide
        · exact number_char_of_int (.inl (mem_to_dec hc))
  mark := by
    intro q
    dsimp only [sample_repr]
    split
    · exact .inl (by decide)
    · exact .inr (by simp)
  injective := by
    have hmark : ∀ n : ℤ, 'e' ∉ dumps_int n := by
      intro n hm
      rcases dumps_int_chars n _ hm with h | h <;> exact absurd h (by decide)
    have hdigits : ∀ n : ℕ, 'e' ∉ to_dec n := fun n hm => absurd (mem_to_dec hm) (by decide)
    intro q q' h
    dsimp only [sample_repr] at h
    split at h <;> split at h
    · rename_i hq hq'
      rw [hq, hq']
    · have hm : 'e' ∈ "1700000000.0".toList := h ▸ (by simp)
      exact absurd hm (by decide)
    · have hm : 'e' ∈ "1700000000.0".toList := h ▸ (by simp)
      exact absurd hm (by decide)
    · obtain ⟨hnum, hden⟩ := append_cons_inj (hmark _) (hmark _) h
      exact Rat.ext (dumps_int_injective hnum) (to_dec_injective hden)

def sample_canonical_env : Env where
  sha256 text :=
    if text = ("\x7b\"ban_id\":\"4c9184f3-7cf4-4f9d-8f4e-6b9a3b0d5c02\",".toList ++
        "\"event_id\":\"4c9184f3-7cf4-4f9d-8f4e-6b9a3b0d5c01\",\"expires_at\":1700000000.0,".toList ++
        "\"ip\":\"2001:db8::1\",\"jail\":\"sshd\",\"op\":\"ban\",\"permanent\":false,".toList ++
        "\"seq\":7\x7d".toList) then
      "61603fc198509b709eccf6da8f5d18a38469a109b96e3133762cee9ca370b97b".toList
    else text
  floats := ⟨sample_repr, fun _ => .nan⟩

/-- Two spellings of the same event. -/
def spelled : Json := timed_event (.str "4C9184F3-7CF4-4F9D-8F4E-6B9A3B0D5C01".toList)
  (.str "2023-11-14T23:13:20+01:00".toList)

def numbered : Json := timed_event (.str "4c9184f3-7cf4-4f9d-8f4e-6b9a3b0d5c01".toList)
  (.int 1700000000)

theorem spelled_accepted : parse_event spelled = .ok (timed 1700000000) := by decide +kernel

theorem numbered_accepted : parse_event numbered = .ok (timed 1700000000) := by decide +kernel

theorem accepted_canonical_iff_sample :
    CanonicalEvent (timed 1700000000) ∧
      payload_hash sample_canonical_env (timed 1700000000).wire =
        "61603fc198509b709eccf6da8f5d18a38469a109b96e3133762cee9ca370b97b".toList ∧
      (timed 1700000000).wire = (timed 1700000000).wire :=
  ⟨((accepted_canonical_iff sample_canonical_env).1 numbered _ numbered_accepted).mpr
      (fun _ _ _ htext => (by cases htext)),
    by decide +kernel,
    (accepted_canonical_iff sample_canonical_env).2.2 (sample_repr_faithful _) _ _
      (.event spelled_accepted) (.event numbered_accepted) (fun _ => rfl) rfl⟩

/-- An event that expires a second before the epoch. -/
def early_event : Json := timed_event (.str "4c9184f3-7cf4-4f9d-8f4e-6b9a3b0d5c01".toList)
  (.str "1969-12-31T23:59:59Z".toList)

theorem early_event_refused :
    parse_event early_event = .ok (timed (-1)) ∧
      parse_event (timed (-1)).wire =
        .error (.validation_error "expires_at is outside the supported range".toList) ∧
      ¬ CanonicalEvent (timed (-1)) := by
  have hrefused : parse_event (timed (-1)).wire =
      .error (.validation_error "expires_at is outside the supported range".toList) := by
    decide +kernel
  refine ⟨by decide +kernel, hrefused, fun hcanonical => ?_⟩
  have hagain := hcanonical.again
  rw [hrefused] at hagain
  cases hagain

end F2bguard.Claims
