/-
The exceptions that leave `do_POST`.

A request that is refused gets its response from an `except` clause, one for each
kind of exception the validators and the store are written to raise. A `ValueError`,
`RecursionError` or `OverflowError` has no clause: it ends the handler and the
client is left without an answer. Two places of the decoder raise the first two,
`Scanner.lean`; the third comes from `float()` of an integer beyond the doubles,
in `_expires_at`. There is no other (`do_POST_answers_iff`).
-/
import F2bguard.Scanner
import F2bguard.Handler

set_option autoImplicit false

namespace F2bguard.Claims

open F2bguard.PyText F2bguard.PyJson
open F2bguard.Store (bind_eq_ok bind_eq_error)

/-! ## Validators

The conditions under which the validators come to an `expires_at` that overflows, in the order of
their checks: an earlier check that fails raises its `ValidationError` first, and nothing
overflows. -/

/-- A check returns. -/
def Passes {ε α : Type} (x : Except ε α) : Prop := ∃ a, x = .ok a

/-- An integer that `float()` cannot round to a double: from halfway between the largest double
and the next power of two on. -/
def Unfloatable (value : Json) : Prop := ∃ n : ℤ, value = .int n ∧ 2 ^ 1024 - 2 ^ 970 ≤ n.natAbs

/-- The checks of `parse_event` before it comes to `expires_at`. -/
def EventOpens (items : List (Text × Json)) : Prop :=
  Passes (check_fields "event".toList event_required event_optional items) ∧
    ∃ op, parse_op (field items "op".toList) = .ok op ∧
      Passes (parse_permanent op (field items "permanent".toList))

/-- An event all of whose fields pass. -/
def EventReads (raw : Json) : Prop :=
  ∃ items, raw = .obj items ∧ EventOpens items ∧
    Passes (_expires_at (field items "expires_at".toList)) ∧
    Passes (_uuid (field items "event_id".toList) "event_id".toList) ∧
    Passes (_seq (field items "seq".toList)) ∧
    Passes (_identifier (field items "jail".toList) "jail".toList) ∧
    Passes (_uuid (field items "ban_id".toList) "ban_id".toList) ∧
    Passes (_ip (field items "ip".toList))

/-- An event whose `expires_at` overflows. The fields that are checked later may be anything. -/
def EventOverflows (raw : Json) : Prop :=
  ∃ items, raw = .obj items ∧ EventOpens items ∧ Unfloatable (field items "expires_at".toList)

/-- The checks of `parse_claim` before it comes to `expires_at`. -/
def ClaimOpens (items : List (Text × Json)) : Prop :=
  Passes (check_fields "claim".toList claim_required [] items) ∧
    ∃ b, field items "permanent".toList = .bool b

/-- A claim all of whose fields pass. -/
def ClaimReads (raw : Json) : Prop :=
  ∃ items, raw = .obj items ∧ ClaimOpens items ∧
    Passes (_expires_at (field items "expires_at".toList)) ∧
    Passes (_identifier (field items "jail".toList) "jail".toList) ∧
    Passes (_uuid (field items "ban_id".toList) "ban_id".toList) ∧
    Passes (_ip (field items "ip".toList))

def ClaimOverflows (raw : Json) : Prop :=
  ∃ items, raw = .obj items ∧ ClaimOpens items ∧ Unfloatable (field items "expires_at".toList)

/-- Some element overflows, and those before it are read. -/
def FirstOverflows (reads overflows : Json → Prop) (raws : List Json) : Prop :=
  ∃ before raw after, raws = before ++ raw :: after ∧ (∀ r ∈ before, reads r) ∧ overflows raw

/-- The value of `events` makes `validate_events` come to an `expires_at` that overflows. -/
def EventsOverflow (raw_events : Json) (maximum : ℕ) : Prop :=
  ∃ raws, raw_events = .arr raws ∧ raws.length ≤ maximum ∧
    FirstOverflows EventReads EventOverflows raws

def SnapshotOverflows (snapshot_id seq raw_claims : Json) (maximum : ℕ) : Prop :=
  Passes (_uuid snapshot_id "snapshot_id".toList) ∧ Passes (_seq seq) ∧
    ∃ raws, raw_claims = .arr raws ∧ raws.length ≤ maximum ∧
      FirstOverflows ClaimReads ClaimOverflows raws

/-! ## Which validators overflow

Only `_expires_at` can, and what calls it passes the exception on. -/

theorem passes_bind {ε α β : Type} {x : Except ε α} {f : α → Except ε β} :
    Passes (x.bind f) ↔ ∃ a, x = .ok a ∧ Passes (f a) := by
  cases x with
  | error e => simp [Passes, Except.bind]
  | ok a => simp [Passes, Except.bind]

/-- A check that raises nothing but a `ValidationError`. -/
def Validates {α : Type} (x : Except Raised α) : Prop := x ≠ .error .overflow_error

theorem validates_invalid {α : Type} (message : Text) : @Validates α (invalid message) :=
  fun h => (by cases h)

theorem validates_ok {α : Type} (a : α) : Validates (.ok a) := fun h => (by cases h)

theorem validates_iff {α : Type} {x : Except Raised α} :
    (∀ e, x = .error e → ∃ message, e = .validation_error message) ↔ ¬ x = .error .overflow_error := by
  constructor
  · intro h hx
    obtain ⟨message, he⟩ := h _ hx
    cases he
  · intro h e he
    cases e with
    | validation_error message => exact ⟨message, rfl⟩
    | overflow_error => exact absurd he h

theorem validates_uuid (value : Json) (name : Text) : Validates (_uuid value name) := by
  unfold _uuid
  split
  · split
    · exact validates_invalid _
    · split
      · exact validates_invalid _
      · exact validates_ok _
  · exact validates_invalid _

theorem validates_seq (value : Json) : Validates (_seq value) := by
  unfold _seq
  split
  · split
    · exact validates_ok _
    · exact validates_invalid _
  · exact validates_invalid _

theorem validates_identifier (value : Json) (name : Text) : Validates (_identifier value name) := by
  unfold _identifier
  split
  · split
    · exact validates_ok _
    · exact validates_invalid _
  · exact validates_invalid _

theorem validates_ip (value : Json) : Validates (_ip value) := by
  unfold _ip
  split
  · split
    · exact validates_invalid _
    · split
      · exact validates_invalid _
      · split
        · exact validates_invalid _
        · exact validates_ok _
  · exact validates_invalid _

theorem validates_check_fields (kind : Text) (required optional : List Text)
    (raw : List (Text × Json)) : Validates (check_fields kind required optional raw) := by
  unfold check_fields
  dsimp only
  split
  · exact validates_invalid _
  · split
    · exact validates_invalid _
    · exact validates_ok _

theorem validates_parse_op (value : Json) : Validates (parse_op value) := by
  unfold parse_op
  split
  · split
    · exact validates_ok _
    · split
      · exact validates_ok _
      · exact validates_invalid _
  · exact validates_invalid _

theorem validates_parse_permanent (op : Op) (value : Json) : Validates (parse_permanent op value) := by
  unfold parse_permanent
  split
  · exact validates_ok _
  · exact validates_ok _
  · exact validates_invalid _
  · exact validates_invalid _

theorem validates_expires_in_range (result : PyFloat) : Validates (expires_in_range result) := by
  unfold expires_in_range
  split
  · split
    · exact validates_ok _
    · exact validates_invalid _
  · exact validates_invalid _

theorem expires_at_overflows (value : Json) :
    _expires_at value = .error .overflow_error ↔ Unfloatable value := by
  have hfloat : ∀ n : ℤ, float_of_int n = none ↔ 2 ^ 1024 - 2 ^ 970 ≤ n.natAbs := by
    intro n
    unfold float_of_int
    split
    · rename_i h
      exact iff_of_false (fun h => (by cases h)) (by omega)
    · rename_i h
      exact iff_of_true rfl (by omega)
  have hother : (∀ n, value ≠ .int n) → ¬ Unfloatable value := by
    rintro hne ⟨n, rfl, -⟩
    exact hne n rfl
  unfold _expires_at
  split
  · exact iff_of_false (validates_ok _) (hother (fun n h => (by cases h)))
  · rename_i n
    split
    · rename_i hnone
      exact iff_of_true rfl ⟨n, rfl, (hfloat n).mp hnone⟩
    · rename_i q hsome
      refine iff_of_false (validates_expires_in_range _) ?_
      rintro ⟨m, hm, hlarge⟩
      cases hm
      rw [(hfloat n).mpr hlarge] at hsome
      cases hsome
  · exact iff_of_false (validates_expires_in_range _) (hother (fun n h => (by cases h)))
  · refine iff_of_false ?_ (hother (fun n h => (by cases h)))
    dsimp only
    split
    · exact validates_invalid _
    · split
      · exact validates_invalid _
      · exact validates_ok _
  · rename_i hint _ _
    exact iff_of_false (validates_invalid _) (hother hint)

theorem parse_event_overflows (raw : Json) :
    parse_event raw = .error .overflow_error ↔ EventOverflows raw := by
  constructor
  · intro h
    unfold parse_event at h
    split at h
    · rename_i items
      -- one check after the other; only that of `expires_at` can overflow
      rcases bind_eq_error.mp h with h | ⟨u, hfields, h⟩
      · exact absurd h (validates_check_fields _ _ _ _)
      rcases bind_eq_error.mp h with h | ⟨op, hop, h⟩
      · exact absurd h (validates_parse_op _)
      rcases bind_eq_error.mp h with h | ⟨permanent, hpermanent, h⟩
      · exact absurd h (validates_parse_permanent _ _)
      rcases bind_eq_error.mp h with h | ⟨expires, -, h⟩
      · exact ⟨items, rfl, ⟨⟨u, hfields⟩, op, hop, permanent, hpermanent⟩,
          (expires_at_overflows _).mp h⟩
      rcases bind_eq_error.mp h with h | ⟨event_id, -, h⟩
      · exact absurd h (validates_uuid _ _)
      rcases bind_eq_error.mp h with h | ⟨seq, -, h⟩
      · exact absurd h (validates_seq _)
      rcases bind_eq_error.mp h with h | ⟨jail, -, h⟩
      · exact absurd h (validates_identifier _ _)
      rcases bind_eq_error.mp h with h | ⟨ban_id, -, h⟩
      · exact absurd h (validates_uuid _ _)
      rcases bind_eq_error.mp h with h | ⟨ip, -, h⟩
      · exact absurd h (validates_ip _)
      · cases h
    · exact absurd h (validates_invalid _)
  · rintro ⟨items, rfl, ⟨⟨u, hfields⟩, op, hop, permanent, hpermanent⟩, hexpires⟩
    exact bind_eq_error.mpr (.inr ⟨u, hfields, bind_eq_error.mpr (.inr ⟨op, hop,
      bind_eq_error.mpr (.inr ⟨permanent, hpermanent,
        bind_eq_error.mpr (.inl ((expires_at_overflows _).mpr hexpires))⟩)⟩)⟩)

theorem parse_claim_overflows (raw : Json) :
    parse_claim raw = .error .overflow_error ↔ ClaimOverflows raw := by
  constructor
  · intro h
    unfold parse_claim at h
    split at h
    · rename_i items
      rcases bind_eq_error.mp h with h | ⟨u, hfields, h⟩
      · exact absurd h (validates_check_fields _ _ _ _)
      dsimp only at h
      split at h
      · rename_i b hb
        rcases bind_eq_error.mp h with h | ⟨permanent, -, h⟩
        · cases h
        rcases bind_eq_error.mp h with h | ⟨expires, -, h⟩
        · exact ⟨items, rfl, ⟨⟨u, hfields⟩, b, hb⟩, (expires_at_overflows _).mp h⟩
        rcases bind_eq_error.mp h with h | ⟨jail, -, h⟩
        · exact absurd h (validates_identifier _ _)
        rcases bind_eq_error.mp h with h | ⟨ban_id, -, h⟩
        · exact absurd h (validates_uuid _ _)
        rcases bind_eq_error.mp h with h | ⟨ip, -, h⟩
        · exact absurd h (validates_ip _)
        · cases h
      · cases h
    · exact absurd h (validates_invalid _)
  · rintro ⟨items, rfl, ⟨⟨u, hfields⟩, b, hb⟩, hexpires⟩
    refine bind_eq_error.mpr (.inr ⟨u, hfields, ?_⟩)
    dsimp only
    rw [hb]
    exact bind_eq_error.mpr (.inr ⟨b, rfl,
      bind_eq_error.mpr (.inl ((expires_at_overflows _).mpr hexpires))⟩)

theorem parse_event_passes (raw : Json) : Passes (parse_event raw) ↔ EventReads raw := by
  constructor
  · intro h
    unfold parse_event at h
    split at h
    · rename_i items
      obtain ⟨u, hfields, h⟩ := passes_bind.mp h
      obtain ⟨op, hop, h⟩ := passes_bind.mp h
      obtain ⟨permanent, hpermanent, h⟩ := passes_bind.mp h
      obtain ⟨expires, hexpires, h⟩ := passes_bind.mp h
      obtain ⟨event_id, hevent, h⟩ := passes_bind.mp h
      obtain ⟨seq, hseq, h⟩ := passes_bind.mp h
      obtain ⟨jail, hjail, h⟩ := passes_bind.mp h
      obtain ⟨ban_id, hban, h⟩ := passes_bind.mp h
      obtain ⟨ip, hip, h⟩ := passes_bind.mp h
      exact ⟨items, rfl, ⟨⟨u, hfields⟩, op, hop, permanent, hpermanent⟩, ⟨expires, hexpires⟩,
        ⟨event_id, hevent⟩, ⟨seq, hseq⟩, ⟨jail, hjail⟩, ⟨ban_id, hban⟩, ⟨ip, hip⟩⟩
    · obtain ⟨e, he⟩ := h
      cases he
  · rintro ⟨items, rfl, ⟨⟨u, hfields⟩, op, hop, permanent, hpermanent⟩, ⟨expires, hexpires⟩,
      ⟨event_id, hevent⟩, ⟨seq, hseq⟩, ⟨jail, hjail⟩, ⟨ban_id, hban⟩, ⟨ip, hip⟩⟩
    exact passes_bind.mpr ⟨u, hfields, passes_bind.mpr ⟨op, hop, passes_bind.mpr ⟨permanent,
      hpermanent, passes_bind.mpr ⟨expires, hexpires, passes_bind.mpr ⟨event_id, hevent,
      passes_bind.mpr ⟨seq, hseq, passes_bind.mpr ⟨jail, hjail, passes_bind.mpr ⟨ban_id, hban,
      passes_bind.mpr ⟨ip, hip, _, rfl⟩⟩⟩⟩⟩⟩⟩⟩⟩

theorem parse_claim_passes (raw : Json) : Passes (parse_claim raw) ↔ ClaimReads raw := by
  constructor
  · intro h
    unfold parse_claim at h
    split at h
    · rename_i items
      obtain ⟨u, hfields, h⟩ := passes_bind.mp h
      dsimp only at h
      split at h
      · rename_i b hb
        obtain ⟨permanent, -, h⟩ := passes_bind.mp h
        obtain ⟨expires, hexpires, h⟩ := passes_bind.mp h
        obtain ⟨jail, hjail, h⟩ := passes_bind.mp h
        obtain ⟨ban_id, hban, h⟩ := passes_bind.mp h
        obtain ⟨ip, hip, h⟩ := passes_bind.mp h
        exact ⟨items, rfl, ⟨⟨u, hfields⟩, b, hb⟩, ⟨expires, hexpires⟩, ⟨jail, hjail⟩,
          ⟨ban_id, hban⟩, ⟨ip, hip⟩⟩
      · obtain ⟨e, he⟩ := h
        cases he
    · obtain ⟨e, he⟩ := h
      cases he
  · rintro ⟨items, rfl, ⟨⟨u, hfields⟩, b, hb⟩, ⟨expires, hexpires⟩, ⟨jail, hjail⟩,
      ⟨ban_id, hban⟩, ⟨ip, hip⟩⟩
    refine passes_bind.mpr ⟨u, hfields, ?_⟩
    dsimp only
    rw [hb]
    exact passes_bind.mpr ⟨b, rfl, passes_bind.mpr ⟨expires, hexpires, passes_bind.mpr ⟨jail, hjail,
      passes_bind.mpr ⟨ban_id, hban, passes_bind.mpr ⟨ip, hip, _, rfl⟩⟩⟩⟩⟩

/-- A list is read up to the first element that is refused. -/
theorem mapM_eq_error {ε α β : Type} {f : α → Except ε β} {e : ε} {xs : List α} :
    xs.mapM f = .error e ↔ ∃ before x after, xs = before ++ x :: after ∧
      (∀ y ∈ before, Passes (f y)) ∧ f x = .error e := by
  induction xs with
  | nil =>
    refine iff_of_false (fun h => (by cases h)) ?_
    rintro ⟨before, x, after, h, -⟩
    exact absurd h.symm (List.append_ne_nil_of_right_ne_nil _ (List.cons_ne_nil _ _))
  | cons x xs ih =>
    have hcons : (x :: xs).mapM f = .error e ↔ f x = .error e ∨
        Passes (f x) ∧ xs.mapM f = .error e := by
      rw [List.mapM_cons]
      refine bind_eq_error.trans (or_congr Iff.rfl ?_)
      constructor
      · rintro ⟨a, ha, h⟩
        rcases bind_eq_error.mp h with h | ⟨bs, -, h⟩
        · exact ⟨⟨a, ha⟩, h⟩
        · cases h
      · rintro ⟨⟨a, ha⟩, h⟩
        exact ⟨a, ha, bind_eq_error.mpr (.inl h)⟩
    rw [hcons, ih]
    constructor
    · rintro (h | ⟨hx, before, y, after, rfl, hbefore, h⟩)
      · exact ⟨[], x, xs, rfl, fun y hy => absurd hy List.not_mem_nil, h⟩
      · exact ⟨x :: before, y, after, rfl, List.forall_mem_cons.mpr ⟨hx, hbefore⟩, h⟩
    · rintro ⟨before, y, after, heq, hbefore, h⟩
      cases before with
      | nil =>
        obtain ⟨rfl, rfl⟩ := List.cons.inj heq
        exact .inl h
      | cons z before =>
        obtain ⟨rfl, rfl⟩ := List.cons.inj heq
        rw [List.forall_mem_cons] at hbefore
        exact .inr ⟨hbefore.1, before, y, after, rfl, hbefore.2, h⟩

theorem mapM_overflows {α : Type} {f : Json → Except Raised α} {reads overflows : Json → Prop}
    (hreads : ∀ raw, Passes (f raw) ↔ reads raw)
    (hoverflows : ∀ raw, f raw = .error .overflow_error ↔ overflows raw) (raws : List Json) :
    raws.mapM f = .error .overflow_error ↔ FirstOverflows reads overflows raws := by
  simp only [mapM_eq_error, hreads, hoverflows, FirstOverflows]

theorem validate_events_overflows (raw_events : Json) (maximum : ℕ) :
    validate_events raw_events maximum = .error .overflow_error ↔
      EventsOverflow raw_events maximum := by
  have hlist := mapM_overflows parse_event_passes parse_event_overflows
  constructor
  · intro h
    unfold validate_events at h
    split at h
    · cases h
    · rename_i raws _
      dsimp only at h
      split at h
      · cases h
      · rename_i hlength
        rcases bind_eq_error.mp h with h | ⟨events, -, h⟩
        · exact ⟨raws, rfl, by omega, (hlist raws).mp h⟩
        · -- the checks on the events as a whole
          split at h
          · cases h
          · split at h
            · cases h
            · cases h
    · cases h
  · rintro ⟨raws, rfl, hlength, hfirst⟩
    have hne : raws ≠ [] := by
      obtain ⟨before, raw, after, rfl, -⟩ := hfirst
      exact List.append_ne_nil_of_right_ne_nil _ (List.cons_ne_nil _ _)
    cases raws with
    | nil => exact absurd rfl hne
    | cons raw raws =>
      unfold validate_events
      dsimp only
      rw [if_neg (by omega)]
      exact bind_eq_error.mpr (.inl ((hlist _).mpr hfirst))

theorem validate_snapshot_overflows (snapshot_id seq raw_claims : Json) (maximum : ℕ) :
    validate_snapshot snapshot_id seq raw_claims maximum = .error .overflow_error ↔
      SnapshotOverflows snapshot_id seq raw_claims maximum := by
  have hlist := mapM_overflows parse_claim_passes parse_claim_overflows
  constructor
  · intro h
    unfold validate_snapshot at h
    rcases bind_eq_error.mp h with h | ⟨parsed_id, hid, h⟩
    · exact absurd h (validates_uuid _ _)
    rcases bind_eq_error.mp h with h | ⟨parsed_seq, hseq, h⟩
    · exact absurd h (validates_seq _)
    cases raw_claims with
    | arr raws =>
      dsimp only at h
      split at h
      · cases h
      · rename_i hlength
        rcases bind_eq_error.mp h with h | ⟨claims, -, h⟩
        · exact ⟨⟨parsed_id, hid⟩, ⟨parsed_seq, hseq⟩, raws, rfl, by omega, (hlist raws).mp h⟩
        · split at h
          · cases h
          · cases h
    | _ => cases h
  · rintro ⟨⟨parsed_id, hid⟩, ⟨parsed_seq, hseq⟩, raws, rfl, hlength, hfirst⟩
    refine bind_eq_error.mpr (.inr ⟨parsed_id, hid, bind_eq_error.mpr (.inr ⟨parsed_seq, hseq, ?_⟩)⟩)
    dsimp only
    rw [if_neg (by omega)]
    exact bind_eq_error.mpr (.inl ((hlist raws).mpr hfirst))

end F2bguard.Claims

namespace F2bguard.Handler

open F2bguard.PyText F2bguard.PyJson F2bguard.Claims F2bguard.Server F2bguard.Enforcer
open F2bguard.HelperClient (Failed)
open F2bguard.Store (DB Served ApplyResult bind_eq_error)

/-! ## Reading a request

From the head of the request to its value. The exceptions that are not caught can come only from
the decoder, once the head has passed. -/

/-- The members the outer object of a request has to have. -/
def outer_fields : Path → List Text
  | .events => ["events".toList]
  | .snapshot => ["claims".toList, "seq".toList, "snapshot_id".toList]

/-- The decoded body makes the validators of its endpoint come to an overflow. -/
def BodyOverflows (env : Server.Env) (path : Path) (raw : Json) : Prop :=
  ∃ items, raw = .obj items ∧ fields_equal items (outer_fields path) ∧
    match path with
    | .events => EventsOverflow (field items "events".toList) env.limits.events_per_request
    | .snapshot => SnapshotOverflows (field items "snapshot_id".toList) (field items "seq".toList)
        (field items "claims".toList) env.limits.claims_per_client

theorem mapError_eq_overflow {α : Type} {x : Except Raised α} :
    x.mapError Refused.raised = .error (.raised .overflow_error) ↔ x = .error .overflow_error := by
  cases x with
  | error e => simp [Except.mapError]
  | ok a => simp [Except.mapError]

theorem outer_eq_ok {raw : Json} {fields : List Text} {items : List (Text × Json)} :
    _outer raw fields = .ok items ↔ raw = .obj items ∧ fields_equal items fields := by
  unfold _outer
  split
  · split
    · rename_i items' hfields
      constructor
      · intro h
        cases h
        exact ⟨rfl, hfields⟩
      · rintro ⟨h, -⟩
        cases h
        rfl
    · rename_i items' hfields
      refine iff_of_false (fun h => (by cases h)) ?_
      rintro ⟨h, hequal⟩
      cases h
      exact hfields hequal
  · rename_i hobj
    refine iff_of_false (fun h => (by cases h)) ?_
    rintro ⟨h, -⟩
    exact hobj items h

theorem outer_ne_overflow (raw : Json) (fields : List Text) :
    _outer raw fields ≠ .error (.raised .overflow_error) := by
  unfold _outer
  split
  · split
    · exact fun h => (by cases h)
    · exact fun h => (by cases h)
  · exact fun h => (by cases h)

theorem allowed_ne_overflow (client : ClientConfig) (jails : List Text) :
    _allowed client jails ≠ .error (.raised .overflow_error) := by
  unfold _allowed
  split
  · exact fun h => (by cases h)
  · exact fun h => (by cases h)

theorem read_request_overflows (env : Server.Env) (client : ClientConfig) (path : Path) (raw : Json) :
    read_request env client path raw = .error (.raised .overflow_error) ↔
      BodyOverflows env path raw := by
  cases path with
  | events =>
    constructor
    · intro h
      rcases bind_eq_error.mp h with h | ⟨body, hbody, h⟩
      · exact absurd h (outer_ne_overflow _ _)
      obtain ⟨hraw, hfields⟩ := outer_eq_ok.mp hbody
      rcases bind_eq_error.mp h with h | ⟨events, -, h⟩
      · exact ⟨body, hraw, hfields,
          (validate_events_overflows _ _).mp (mapError_eq_overflow.mp h)⟩
      rcases bind_eq_error.mp h with h | ⟨u, -, h⟩
      · exact absurd h (allowed_ne_overflow _ _)
      · cases h
    · rintro ⟨items, hraw, hfields, h⟩
      exact bind_eq_error.mpr (.inr ⟨items, outer_eq_ok.mpr ⟨hraw, hfields⟩, bind_eq_error.mpr
        (.inl (mapError_eq_overflow.mpr ((validate_events_overflows _ _).mpr h)))⟩)
  | snapshot =>
    constructor
    · intro h
      rcases bind_eq_error.mp h with h | ⟨body, hbody, h⟩
      · exact absurd h (outer_ne_overflow _ _)
      obtain ⟨hraw, hfields⟩ := outer_eq_ok.mp hbody
      rcases bind_eq_error.mp h with h | ⟨snapshot, -, h⟩
      · exact ⟨body, hraw, hfields,
          (validate_snapshot_overflows _ _ _ _).mp (mapError_eq_overflow.mp h)⟩
      rcases bind_eq_error.mp h with h | ⟨u, -, h⟩
      · exact absurd h (allowed_ne_overflow _ _)
      · cases h
    · rintro ⟨items, hraw, hfields, h⟩
      exact bind_eq_error.mpr (.inr ⟨items, outer_eq_ok.mpr ⟨hraw, hfields⟩, bind_eq_error.mpr
        (.inl (mapError_eq_overflow.mpr ((validate_snapshot_overflows _ _ _ _).mpr h)))⟩)

/-- The head of the request lets `_body` come to the decoder, with this text. -/
def Readable (env : Server.Env) (request : HttpRequest) (text : Text) : Prop :=
  request.transfer_encoding = none ∧
    (∃ raw_length length, request.content_lengths = [raw_length] ∧ ',' ∉ raw_length ∧
      int_decimal raw_length = some length ∧ 0 ≤ length ∧ length ≤ env.limits.body_bytes ∧
      length ≤ request.available) ∧
    request.content_type = "application/json".toList ∧ request.decoded = some text

/-- `_body` sends a response, or it decodes the text of a request that it can read. -/
theorem body_cases (env : Server.Env) (request : HttpRequest) :
    ((∀ text, ¬ Readable env request text) ∧ ∃ response, _body env request = .error (some response)) ∨
      ∃ text, Readable env request text ∧ _body env request =
        match loads (strict_decoder env.store.floats env.max_depth) text with
        | .ok raw => .ok raw
        | .error (.config_error message) => .error (some (error_response 400 message))
        | .error _ => .error none := by
  -- the checks in the order of the source; a readable request passes each
  unfold _body
  split
  · -- a body that is sent in chunks
    rename_i hencoding
    refine .inl ⟨fun text hread => ?_, _, rfl⟩
    rw [hread.1] at hencoding
    cases hencoding
  rename_i hencoding
  rw [Bool.not_eq_true, Option.isSome_eq_false_iff, Option.isNone_iff_eq_none] at hencoding
  split
  · rename_i hlengths
    refine .inl ⟨?_, _, rfl⟩
    rintro text ⟨-, ⟨raw_length, length, hone, -⟩, -⟩
    rw [hlengths] at hone
    cases hone
  · rename_i raw_length hlengths
    -- the one header that was sent is the one a readable request has
    have hsame : ∀ {text}, Readable env request text → ',' ∉ raw_length ∧
        ∃ length, int_decimal raw_length = some length ∧ 0 ≤ length ∧
          length ≤ env.limits.body_bytes ∧ length ≤ request.available := by
      rintro text ⟨-, ⟨raw, length, hone, hcomma, hrest⟩, -⟩
      rw [hlengths] at hone
      cases hone
      exact ⟨hcomma, length, hrest⟩
    split
    · rename_i hcomma
      exact .inl ⟨fun text hread => (hsame hread).1 hcomma, _, rfl⟩
    rename_i hcomma
    split
    · rename_i hnone
      refine .inl ⟨fun text hread => ?_, _, rfl⟩
      obtain ⟨length, hlength, -⟩ := (hsame hread).2
      rw [hnone] at hlength
      cases hlength
    -- it is compared with 0, with the limit, and after the content type with what arrives
    rename_i length hlength
    have hbounds : ∀ {text}, Readable env request text → 0 ≤ length ∧
        length ≤ env.limits.body_bytes ∧ length ≤ request.available := by
      intro text hread
      obtain ⟨other, hother, hbounds⟩ := (hsame hread).2
      rw [hlength] at hother
      cases hother
      exact hbounds
    split
    · exact .inl ⟨fun text hread => by have := hbounds hread; omega, _, rfl⟩
    split
    · exact .inl ⟨fun text hread => by have := hbounds hread; omega, _, rfl⟩
    split
    · rename_i htype
      exact .inl ⟨fun text hread => htype hread.2.2.1, _, rfl⟩
    rename_i htype
    split
    · exact .inl ⟨fun text hread => by have := hbounds hread; omega, _, rfl⟩
    split
    · rename_i hdecoded
      refine .inl ⟨fun text hread => ?_, _, rfl⟩
      rw [hread.2.2.2] at hdecoded
      cases hdecoded
    rename_i text hdecoded
    exact .inr ⟨text, ⟨hencoding, ⟨raw_length, length, hlengths, hcomma, hlength, by omega, by omega,
      by omega⟩, not_not.mp htype, hdecoded⟩, rfl⟩
  · rename_i hnil hone
    refine .inl ⟨?_, _, rfl⟩
    rintro text ⟨-, ⟨raw_length, length, hlengths, -⟩, -⟩
    exact hone raw_length hlengths

/-! ## Requests without an answer

Both conditions are about the text of the body alone, apart from the limits of the configuration.
The store does not come into it: what it raises is caught. -/

/-- The client that `_authorize` returns. -/
def Authorized (service : Service) (request : HttpRequest) (moment : Moment) (w : State)
    (client : RegisteredClient) : Prop :=
  request.fingerprint.bind (clients_by_fingerprint service) = some client ∧
    (allow service.requests_per_minute w.requests client.id moment.monotonic).1 = true

/-- The text of the body trips the scanner, or its value overflows in a validator. -/
def Unanswerable (env : Server.Env) (path : Text) (text : Text) : Prop :=
  Trips (strict_decoder env.store.floats env.max_depth) .value env.max_depth (skip_ws text) ∨
    ∃ raw endpoint, loads (strict_decoder env.store.floats env.max_depth) text = .ok raw ∧
      path_of path = some endpoint ∧ BodyOverflows env endpoint raw

theorem refusal_eq_none {e : Refused} : refusal e = none ↔ e = .raised .overflow_error := by
  cases e with
  | permission message => exact iff_of_false (fun h => (by cases h)) (fun h => (by cases h))
  | raised e =>
    cases e with
    | validation_error message => exact iff_of_false (fun h => (by cases h)) (fun h => (by cases h))
    | overflow_error => exact iff_of_true rfl rfl
  | store e =>
    cases e <;> exact iff_of_false (fun h => (by cases h)) (fun h => (by cases h))

/-- A write is refused by an overflow when its body overflows. -/
theorem write_overflows (env : Server.Env) (client : ClientConfig) (db : DB) (path : Path)
    (raw : Json) (moment : Moment) :
    (write env client db path raw moment).1 = .error (.raised .overflow_error) ↔
      BodyOverflows env path raw := by
  rw [← read_request_overflows env client path raw]
  unfold write
  cases hread : read_request env client path raw with
  | error e => simp only [Except.error.injEq]
  | ok posted =>
    refine iff_of_false ?_ (fun h => (by cases h))
    dsimp only
    split
    · exact fun h => (by cases h)
    · unfold store_write
      rw [hread]
      dsimp only
      cases ((request_call env client posted moment.now).perform env.store db).1 with
      | error e => exact fun h => (by cases h)
      | ok result => exact fun h => (by cases h)

theorem post_eq_none_iff {service : Service} {client : RegisteredClient} {request : HttpRequest}
    {moment : Moment} {w : World} (hserved : Served service.server.store w.db) :
    (post service client request moment w).1 = none ↔
      ∃ text, Readable service.server request text ∧
        Unanswerable service.server request.path text := by
  unfold post
  rcases body_cases service.server request with ⟨hnone, response, hbody⟩ | ⟨text, hread, hbody⟩
  · rw [hbody]
    exact iff_of_false (fun h => (by cases h)) (fun ⟨text, hread, _⟩ => hnone text hread)
  -- a request has one text
  have htext : (∃ text, Readable service.server request text ∧
      Unanswerable service.server request.path text) ↔
        Unanswerable service.server request.path text := by
    constructor
    · rintro ⟨other, hother, h⟩
      have heq : some other = some text := by rw [← hother.2.2.2, hread.2.2.2]
      cases heq
      exact h
    · exact fun h => ⟨text, hread, h⟩
  rw [htext, Unanswerable, ← escapes_loads_iff, hbody]
  -- the text may not be JSON, or not be read to its end
  cases hloads : loads (strict_decoder service.server.store.floats service.server.max_depth) text with
  | error e =>
    cases e with
    | config_error message =>
      refine iff_of_false (fun h => (by cases h)) ?_
      rintro (h | ⟨raw, path, h, -⟩)
      · exact not_escapes_config _ h
      · cases h
    | value_error => exact iff_of_true rfl (.inl ⟨_, rfl, rfl⟩)
    | recursion_error => exact iff_of_true rfl (.inl ⟨_, rfl, rfl⟩)
  | ok raw =>
    dsimp only
    cases hpath : path_of request.path with
    | none =>
      refine iff_of_false (fun h => (by cases h)) ?_
      rintro (h | ⟨raw', path, -, h, -⟩)
      · exact not_escapes_ok _ h
      · cases h
    | some path =>
      dsimp only
      -- the value may not be converted
      have hoverflows := write_overflows service.server client.toClientConfig w.db path raw moment
      have hraw : (Escapes (.ok raw) ∨ ∃ raw' path', (Except.ok raw : Except LoadError Json) = .ok raw' ∧
          some path = some path' ∧ BodyOverflows service.server path' raw') ↔
            BodyOverflows service.server path raw := by
        constructor
        · rintro (h | ⟨raw', path', h, hsome, hbody⟩)
          · exact absurd h (not_escapes_ok _)
          · cases h
            cases hsome
            exact hbody
        · exact fun h => .inr ⟨raw, path, rfl, rfl, h⟩
      rw [hraw, ← hoverflows]
      rcases hwrite : write service.server client.toClientConfig w.db path raw moment with ⟨result, db⟩
      rcases write_cases hwrite with ⟨e, rfl, rfl⟩ | ⟨posted, r, hposted, rfl, haccepted, rfl⟩
      · exact refusal_eq_none.trans ⟨congrArg _, fun h => by cases h; rfl⟩
      · -- what was stored is enforced; the addresses of a served store are readable
        have hperformed := hserved.perform (a := .call (request_call service.server
          client.toClientConfig posted moment.now)) (read_request_ok hposted).1
        have hother := (enforce_and_count_served service.helper moment.surroundings client.id
          (w := { w with db := ((request_call service.server client.toClientConfig posted
            moment.now).perform service.server.store w.db).2 }) hperformed).2
        obtain ⟨response, hresponse, -⟩ := finish_response_spec haccepted hother
        refine iff_of_false (fun h => ?_) (fun h => (by cases h))
        have hfinished : finish_response r (enforce_and_count service.helper moment.surroundings
            client.id { w with db := ((request_call service.server client.toClientConfig posted
              moment.now).perform service.server.store w.db).2 }).1 = none := h
        rw [hresponse] at hfinished
        cases hfinished

/-- The handler ends without a response when the body of an authorised client is one it cannot
answer. -/
theorem do_POST_eq_none_iff {service : Service} {request : HttpRequest} {moment : Moment} {w : State}
    (hserved : Served service.server.store w.db) :
    (do_POST service request moment w).1 = none ↔
      ∃ client text, Authorized service request moment w client ∧
        Readable service.server request text ∧ Unanswerable service.server request.path text := by
  unfold do_POST
  cases hclient : request.fingerprint.bind (clients_by_fingerprint service) with
  | none =>
    refine iff_of_false (fun h => (by cases h)) ?_
    rintro ⟨client, text, ⟨hsome, -⟩, -⟩
    rw [hclient] at hsome
    cases hsome
  | some client =>
    dsimp only
    rcases hallow : allow service.requests_per_minute w.requests client.id moment.monotonic with
      ⟨allowed, requests⟩
    -- the certificate names one client, and its request is admitted or not
    have hauthorized : ∀ other, Authorized service request moment w other ↔
        other = client ∧ allowed = true := by
      intro other
      rw [Authorized, hclient]
      constructor
      · rintro ⟨h, hallowed⟩
        cases h
        rw [hallow] at hallowed
        exact ⟨rfl, hallowed⟩
      · rintro ⟨rfl, hallowed⟩
        rw [hallow]
        exact ⟨rfl, hallowed⟩
    cases allowed with
    | false =>
      refine iff_of_false (fun h => (by cases h)) ?_
      rintro ⟨other, text, hother, -⟩
      exact absurd ((hauthorized other).mp hother).2 Bool.false_ne_true
    | true =>
      refine (post_eq_none_iff hserved).trans ⟨?_, ?_⟩
      · rintro ⟨text, h⟩
        exact ⟨client, text, (hauthorized client).mpr ⟨rfl, rfl⟩, h⟩
      · rintro ⟨other, text, -, h⟩
        exact ⟨text, h⟩

/-- **When a POST is answered.** For every service, state of its store and request:
`strict_json_loads` raises a `ConfigError` only unless the text trips the scanner, the validators
raise a `ValidationError` only unless an `expires_at` overflows, and a POST is answered unless one
of the two happens to the body of an authorised client. -/
theorem do_POST_answers_iff (service : Service) (request : HttpRequest) (moment : Moment) (w : State)
    (hserved : Served service.server.store w.db) :
    (∀ text, (∀ e, loads (strict_decoder service.server.store.floats service.server.max_depth) text =
        .error e → ∃ message, e = .config_error message) ↔
      ¬ Trips (strict_decoder service.server.store.floats service.server.max_depth) .value
        service.server.max_depth (skip_ws text)) ∧
    (∀ raw_events maximum, (∀ e, validate_events raw_events maximum = .error e →
        ∃ message, e = .validation_error message) ↔ ¬ EventsOverflow raw_events maximum) ∧
    (∀ snapshot_id seq raw_claims maximum,
      (∀ e, validate_snapshot snapshot_id seq raw_claims maximum = .error e →
        ∃ message, e = .validation_error message) ↔
      ¬ SnapshotOverflows snapshot_id seq raw_claims maximum) ∧
    ((do_POST service request moment w).1.isSome ↔
      ∀ client text, Authorized service request moment w client →
        Readable service.server request text →
          ¬ Unanswerable service.server request.path text) := by
  refine ⟨fun text => ?_, fun raw_events maximum => ?_, fun snapshot_id seq raw_claims maximum => ?_,
    ?_⟩
  · rw [← escapes_loads_iff]
    constructor
    · rintro h ⟨e, he, hcaught⟩
      obtain ⟨message, rfl⟩ := h e he
      cases hcaught
    · intro h e he
      cases e with
      | config_error message => exact ⟨message, rfl⟩
      | value_error => exact absurd ⟨_, he, rfl⟩ h
      | recursion_error => exact absurd ⟨_, he, rfl⟩ h
  · rw [← validate_events_overflows, validates_iff]
  · rw [← validate_snapshot_overflows, validates_iff]
  · rw [Option.isSome_iff_ne_none, Ne, do_POST_eq_none_iff hserved]
    constructor
    · exact fun h client text hclient hread hbad => h ⟨client, text, hclient, hread, hbad⟩
    · rintro h ⟨client, text, hclient, hread, hbad⟩
      exact h client text hclient hread hbad

/-! A request that is answered, and one with an integer that is no double. -/

def sample_client : RegisteredClient :=
  { id := "a".toList, allowed_jails := ["sshd".toList], cert_sha256 := ["f1".toList] }

theorem sample_readable : Readable sample_service.server sample_request sample_body := by
  refine ⟨rfl, ⟨to_dec sample_body.length, sample_body.length, rfl, by decide +kernel,
    by decide +kernel, by decide +kernel, by decide +kernel, Int.le_refl _⟩, rfl, rfl⟩

theorem do_POST_answers_iff_sample :
    ¬ Unanswerable sample_service.server sample_request.path sample_body := by
  have hanswered : (do_POST sample_service sample_request sample_moment sample_state).1.isSome := by
    decide +kernel
  exact (do_POST_answers_iff sample_service sample_request sample_moment sample_state
    (Served.initial _)).2.2.2.mp hanswered sample_client sample_body ⟨rfl, rfl⟩ sample_readable

def large_event : Json := .obj [
  ("event_id".toList, .str "4c9184f3-7cf4-4f9d-8f4e-6b9a3b0d5c01".toList),
  ("seq".toList, .int 1), ("op".toList, .str "ban".toList), ("jail".toList, .str "sshd".toList),
  ("ban_id".toList, .str "4c9184f3-7cf4-4f9d-8f4e-6b9a3b0d5d01".toList),
  ("ip".toList, .str "192.0.2.7".toList), ("permanent".toList, .bool false),
  ("expires_at".toList, .int (10 ^ 400))]

def large_value : Json := .obj [("events".toList, .arr [large_event])]

def large_body : Text := dumps Store.sample_env.floats large_value

def large_request : HttpRequest :=
  { sample_request with
    content_lengths := [to_dec large_body.length]
    available := large_body.length
    decoded := some large_body }

theorem large_wire : Wire large_value := by
  have hkeys : ["event_id".toList, "seq".toList, "op".toList, "jail".toList, "ban_id".toList,
      "ip".toList, "permanent".toList, "expires_at".toList].Nodup := by decide +kernel
  have hevent : Wire large_event := by
    refine ⟨hkeys, ?_⟩
    simp only [WireItems, Wire]
    decide +kernel
  exact ⟨by decide, by decide, ⟨hevent, trivial⟩, trivial⟩

theorem large_loads : loads (strict_decoder sample_service.server.store.floats
    sample_service.server.max_depth) large_body = .ok large_value :=
  loads_dumps _ _ (strict_decoder_keepsObjects _ _) large_wire (by decide)

theorem large_events : validate_events (.arr [large_event])
    sample_service.server.limits.events_per_request = .error .overflow_error := by
  decide +kernel

theorem large_overflows : BodyOverflows sample_service.server .events large_value := by
  refine ⟨_, rfl, by decide +kernel, (validate_events_overflows _ _).mp ?_⟩
  have hfield : field [("events".toList, Json.arr [large_event])] "events".toList =
      .arr [large_event] := rfl
  rw [hfield]
  exact large_events

theorem large_readable : Readable sample_service.server large_request large_body := by
  refine ⟨rfl, ⟨to_dec large_body.length, large_body.length, rfl, by decide +kernel,
    by decide +kernel, by decide +kernel, by decide +kernel, Int.le_refl _⟩, rfl, rfl⟩

/-- An authorised client that sends an event which expires in 10 ^ 400 seconds gets no answer. -/
theorem large_expires_at_unanswered :
    Served sample_service.server.store sample_state.db ∧
      Authorized sample_service large_request sample_moment sample_state sample_client ∧
      Readable sample_service.server large_request large_body ∧
      validate_events (.arr [large_event]) sample_service.server.limits.events_per_request =
        .error .overflow_error ∧
      (do_POST sample_service large_request sample_moment sample_state).1 = none :=
  ⟨Served.initial _, ⟨rfl, rfl⟩, large_readable, large_events,
    (do_POST_eq_none_iff (Served.initial _)).mpr ⟨sample_client, large_body, ⟨rfl, rfl⟩,
      large_readable, .inr ⟨large_value, .events, large_loads, rfl, large_overflows⟩⟩⟩

end F2bguard.Handler
