/-
What the receiver wants blocked.

The rows of `claims` come from validated requests only, so each holds an address in its
canonical form that is not a protected one. `effective_ips` therefore always returns, and what
it returns is the set of the addresses some client claims for ever at that time, by family,
sorted and each once (`effective_ips_spec`).
-/
import F2bguard.Admission
import F2bguard.Payloads

set_option autoImplicit false

namespace F2bguard.Store

open F2bguard.PyText F2bguard.PyJson F2bguard.Ipaddress F2bguard.Claims F2bguard.Tables
open F2bguard.Lifecycle
open F2bguard.Sender (CanonicalIP)

/-! ## Stores that requests were posted to

`Served` is what the later modules know about a store: it was filled by validated requests, by
whomever, and pruned or not. Invariants of such stores are proved by `Served.induction`. -/

/-- The request is what the validators read from some body. -/
inductive Request.Validated : Request → Prop
  | events {raw : Json} {maximum : ℕ} {es : List Event} (h : validate_events raw maximum = .ok es) :
      Request.Validated (.events es)
  | snapshot {raw_id raw_seq raw : Json} {maximum seq : ℕ} {snapshot_id : Text} {claims : List Claim}
      (h : validate_snapshot raw_id raw_seq raw maximum = .ok (snapshot_id, seq, claims)) :
      Request.Validated (.snapshot snapshot_id seq claims)

def Action.Validated : Action → Prop
  | .call posted => posted.request.Validated
  | _ => True

/-- The tables that validated requests, prunings and enforcement records lead to. -/
def Served (env : Env) (db : DB) : Prop :=
  ∃ actions : List Action, (∀ a ∈ actions, a.Validated) ∧ run env DB.initial actions = db

theorem Served.reachable {env : Env} {db : DB} (h : Served env db) : Reachable env db := by
  obtain ⟨actions, -, hrun⟩ := h
  exact ⟨actions, hrun⟩

theorem Served.initial (env : Env) : Served env DB.initial := ⟨[], by simp, rfl⟩

theorem Served.perform {env : Env} {db : DB} (h : Served env db) {a : Action} (ha : a.Validated) :
    Served env (a.perform env db) := by
  obtain ⟨actions, hall, rfl⟩ := h
  refine ⟨actions ++ [a], ?_, ?_⟩
  · intro b hb
    rcases List.mem_append.mp hb with hb | hb
    · exact hall b hb
    · rwa [List.mem_singleton.mp hb]
  · rw [run_append]
    rfl

/-- What holds of the empty store and is kept by validated actions holds of every such store. -/
theorem Served.induction {env : Env} {P : DB → Prop} (h0 : P DB.initial)
    (hstep : ∀ db (a : Action), a.Validated → P db → P (a.perform env db)) {db : DB}
    (h : Served env db) : P db := by
  obtain ⟨actions, hall, rfl⟩ := h
  induction actions using List.reverseRecOn with
  | nil => exact h0
  | append_singleton actions a ih =>
    rw [run_append]
    refine hstep _ a (hall a (by simp)) (ih (fun b hb => hall b (by simp [hb])))

/-! ## Validated addresses

The validator of an address prints it, so the text in a row is one that the library prints. This
is followed through both kinds of requests into the rows. -/

theorem _ip_canonical {value : Json} {ip : Text} (h : _ip value = .ok ip) : CanonicalIP ip := by
  unfold _ip invalid at h
  split at h
  · split at h
    · cases h
    · split at h
      · cases h
      · rename_i parsed _
        split at h
        · cases h
        · rename_i hprotected
          cases h
          exact ⟨parsed, Bool.eq_false_iff.mpr hprotected, rfl⟩
  · cases h

theorem parse_event_ip {raw : Json} {e : Event} (h : parse_event raw = .ok e) : CanonicalIP e.ip := by
  cases raw with
  | obj raw =>
    obtain ⟨_, -, h⟩ := bind_eq_ok.mp h
    obtain ⟨op, -, h⟩ := bind_eq_ok.mp h
    obtain ⟨permanent, -, h⟩ := bind_eq_ok.mp h
    obtain ⟨expires, -, h⟩ := bind_eq_ok.mp h
    obtain ⟨event_id, -, h⟩ := bind_eq_ok.mp h
    obtain ⟨seq, -, h⟩ := bind_eq_ok.mp h
    obtain ⟨jail, -, h⟩ := bind_eq_ok.mp h
    obtain ⟨ban_id, -, h⟩ := bind_eq_ok.mp h
    obtain ⟨ip, hip, h⟩ := bind_eq_ok.mp h
    cases h
    exact _ip_canonical hip
  | _ => cases h

theorem parse_claim_ip {raw : Json} {c : Claim} (h : parse_claim raw = .ok c) : CanonicalIP c.ip := by
  cases raw with
  | obj raw =>
    obtain ⟨_, -, h⟩ := bind_eq_ok.mp h
    dsimp only at h
    split at h
    · obtain ⟨permanent, -, h⟩ := bind_eq_ok.mp h
      obtain ⟨expires, -, h⟩ := bind_eq_ok.mp h
      obtain ⟨jail, -, h⟩ := bind_eq_ok.mp h
      obtain ⟨ban_id, -, h⟩ := bind_eq_ok.mp h
      obtain ⟨ip, hip, h⟩ := bind_eq_ok.mp h
      cases h
      exact _ip_canonical hip
    · cases h
  | _ => cases h

/-- What each element of a list was read as, the elements of the result have in common. -/
theorem forall_of_mapM {α β ε : Type} {f : α → Except ε β} {P : β → Prop}
    (hf : ∀ x y, f x = .ok y → P y) {xs : List α} : ∀ {ys : List β}, xs.mapM f = .ok ys → ∀ y ∈ ys, P y := by
  induction xs with
  | nil =>
    intro ys h y hy
    cases h
    cases hy
  | cons x xs ih =>
    intro ys h
    rw [List.mapM_cons] at h
    obtain ⟨y, hy, h⟩ := bind_eq_ok.mp h
    obtain ⟨ys', hys, h⟩ := bind_eq_ok.mp h
    cases h
    rw [List.forall_mem_cons]
    exact ⟨hf x y hy, ih hys⟩

theorem validate_events_parsed {raw : Json} {maximum : ℕ} {es : List Event}
    (h : validate_events raw maximum = .ok es) : ∃ raws : List Json, raws.mapM parse_event = .ok es := by
  unfold validate_events at h
  split at h
  · cases h
  · rename_i raws _
    dsimp only at h
    split at h
    · cases h
    · obtain ⟨events, hevents, h⟩ := bind_eq_ok.mp h
      split at h
      · cases h
      · split at h
        · cases h
        · cases h
          exact ⟨raws, hevents⟩
  · cases h

theorem validate_snapshot_parsed {raw_id raw_seq raw : Json} {maximum : ℕ}
    {result : Text × ℕ × List Claim} (h : validate_snapshot raw_id raw_seq raw maximum = .ok result) :
    ∃ raws : List Json, raws.mapM parse_claim = .ok result.2.2 := by
  unfold validate_snapshot at h
  obtain ⟨parsed_id, -, h⟩ := bind_eq_ok.mp h
  obtain ⟨parsed_seq, -, h⟩ := bind_eq_ok.mp h
  cases raw with
  | arr raws =>
    dsimp only at h
    split at h
    · cases h
    · obtain ⟨claims, hclaims, h⟩ := bind_eq_ok.mp h
      split at h
      · cases h
      · cases h
        exact ⟨raws, hclaims⟩
  | _ => cases h

/-- A validated request puts canonical addresses only. -/
theorem Request.Validated.gives {request : Request} (h : request.Validated) :
    ∀ change ∈ request.changes, ∀ k v, change.Gives k v → CanonicalIP v.ip := by
  cases h with
  | events h =>
    obtain ⟨raws, hraws⟩ := validate_events_parsed h
    intro change hchange k v hgives
    obtain ⟨e, he, rfl⟩ := List.mem_map.mp hchange
    have hip := forall_of_mapM (fun _ _ => parse_event_ip) hraws e he
    unfold Event.change at hgives
    cases hop : e.op with
    | ban =>
      rw [hop] at hgives
      obtain ⟨-, rfl⟩ := hgives
      exact hip
    | unban =>
      rw [hop] at hgives
      cases hgives
  | snapshot h =>
    obtain ⟨raws, hraws⟩ := validate_snapshot_parsed h
    intro change hchange k v hgives
    rw [Request.changes, List.mem_singleton] at hchange
    subst hchange
    obtain ⟨c, hc, hentry⟩ := List.mem_map.mp hgives
    have hip := forall_of_mapM (fun _ _ => parse_claim_ip) hraws c hc
    cases hentry
    exact hip

/-- All rows of `claims` hold canonical addresses. -/
theorem Served.canonical {env : Env} {db : DB} (h : Served env db) :
    ∀ r ∈ db.claims.rows, CanonicalIP r.ip := by
  have hset : ∀ c k v, claim_set db c k = some v → CanonicalIP v.ip := by
    refine h.induction (P := fun db => ∀ c k v, claim_set db c k = some v → CanonicalIP v.ip) ?_ ?_
    · intro c k v hv
      cases hv
    · intro db a ha ih c k v hv
      rw [claim_set_perform] at hv
      rcases applyAll_eq_some hv with hv | ⟨change, hchange, hgives⟩
      · exact ih c k v hv
      · obtain ⟨request, hrequest, hchange⟩ := List.mem_flatMap.mp hchange
        cases a with
        | call call =>
          rw [fresh_request] at hrequest
          split at hrequest
          · rw [Option.toList_some, List.mem_singleton] at hrequest
            subst hrequest
            exact Request.Validated.gives ha change hchange k v hgives
          · cases hrequest
        | _ => cases hrequest
  intro r hr
  exact hset r.client_id (r.jail, r.ban_id) r.value (claim_set_eq_some.mpr ⟨r, hr, rfl, rfl⟩)

/-! ## The desired addresses

The rows are texts; what is wanted are addresses. As every text is canonical, two rows have the
same text when they have the same address, and sorting by number is sorting addresses. -/

/-- Some client claims the address for ever at that time. A claim that is permanent and has an
expiry counts until then. -/
def Desired (db : DB) (boundary : ℚ) (a : IPAddress) : Prop :=
  ∃ r ∈ db.claims.rows, r.permanent = 1 ∧ (∀ t, r.expires_at = some t → boundary < t) ∧ r.ip = a.str

theorem is_effective_iff {boundary : ℚ} {r : ClaimRow} : is_effective boundary r = true ↔
    r.permanent = 1 ∧ ∀ t, r.expires_at = some t → boundary < t := by
  rw [is_effective, decide_eq_true_eq, Option.all_eq_true]
  simp only [decide_eq_true_eq]

/-- One of the lists of `family_lists`, as addresses. -/
def family (addresses : List IPAddress) (version : Version) : List IPAddress :=
  (addresses.filter (·.version = version)).dedup.insertionSort (fun a b => a.toNat ≤ b.toNat)

theorem family_perm (addresses : List IPAddress) (version : Version) :
    (family addresses version).Perm (addresses.filter (·.version = version)).dedup :=
  List.perm_insertionSort _ _

theorem mem_family {addresses : List IPAddress} {version : Version} {a : IPAddress} :
    a ∈ family addresses version ↔ a ∈ addresses ∧ a.version = version := by
  rw [(family_perm addresses version).mem_iff, List.mem_dedup, List.mem_filter, decide_eq_true_eq]

theorem family_nodup (addresses : List IPAddress) (version : Version) :
    (family addresses version).Nodup :=
  (family_perm addresses version).nodup_iff.mpr (List.nodup_dedup _)

theorem family_sorted (addresses : List IPAddress) (version : Version) :
    (family addresses version).Pairwise (fun a b => a.toNat ≤ b.toNat) := by
  have : Std.Total (fun a b : IPAddress => a.toNat ≤ b.toNat) := ⟨fun a b => Nat.le_total _ _⟩
  have : IsTrans IPAddress (fun a b => a.toNat ≤ b.toNat) := ⟨fun a b c => Nat.le_trans⟩
  exact List.pairwise_insertionSort _ _

theorem family_length_le (addresses : List IPAddress) :
    (family addresses .four).length + (family addresses .six).length ≤ addresses.length := by
  have hsum : (addresses.filter (·.version = .four)).length +
      (addresses.filter (·.version = .six)).length = addresses.length := by
    induction addresses with
    | nil => rfl
    | cons a addresses ih =>
      rw [List.length_cons, ← ih]
      cases hversion : a.version with
      | four => simp [hversion]; omega
      | six => simp [hversion]; omega
  have hle : ∀ version, (family addresses version).length ≤
      (addresses.filter (·.version = version)).length := by
    intro version
    rw [(family_perm addresses version).length_eq]
    exact (List.dedup_sublist _).length_le
  have := hle .four
  have := hle .six
  omega

/-- The addresses the store wants blocked, of one family. -/
structure DesiredFamily (db : DB) (boundary : ℚ) (version : Version) (addresses : List IPAddress) :
    Prop where
  nodup : addresses.Nodup
  sorted : addresses.Pairwise (fun a b => a.toNat ≤ b.toNat)
  unprotected : ∀ a ∈ addresses, a.is_protected = false
  mem_iff : ∀ a, a ∈ addresses ↔ a.version = version ∧ Desired db boundary a

theorem addresses_of_rows {rows : List ClaimRow} (h : ∀ r ∈ rows, CanonicalIP r.ip) :
    ∃ addresses : List IPAddress, rows.mapM (fun r => ip_address r.ip) = some addresses ∧
      addresses.map IPAddress.str = rows.map ClaimRow.ip ∧
        ∀ a ∈ addresses, a.is_protected = false := by
  induction rows with
  | nil => exact ⟨[], rfl, rfl, by simp⟩
  | cons r rows ih =>
    rw [List.forall_mem_cons] at h
    obtain ⟨a, hprotected, hip⟩ := h.1
    obtain ⟨addresses, hmap, hstr, hall⟩ := ih h.2
    refine ⟨a :: addresses, ?_, ?_, List.forall_mem_cons.mpr ⟨hprotected, hall⟩⟩
    · rw [List.mapM_cons, hmap, hip, ip_address_str]
      rfl
    · rw [List.map_cons, List.map_cons, hstr, hip]

/-- **`effective_ips` returns the desired addresses**, each once, by family and in the order of
their numbers. It never raises in such a store. -/
theorem effective_ips_spec {env : Env} {db : DB} (h : Served env db) (boundary : ℚ) :
    ∃ v4 v6 : List IPAddress,
      effective_ips db boundary = some (v4.map IPAddress.str, v6.map IPAddress.str) ∧
      DesiredFamily db boundary .four v4 ∧ DesiredFamily db boundary .six v6 ∧
      v4.length + v6.length ≤ MAX_TOTAL_CLAIMS := by
  have hcanonical := h.canonical
  obtain ⟨addresses, hmap, hstr, hprotected⟩ :=
    @addresses_of_rows (db.claims.rows.filter (is_effective boundary))
      (fun r hr => hcanonical r (List.mem_filter.mp hr).1)
  have hmem : ∀ a, a ∈ addresses ↔ Desired db boundary a := by
    intro a
    rw [← List.mem_map_of_injective IPAddress.str_injective, hstr, List.mem_map]
    constructor
    · rintro ⟨r, hr, hip⟩
      obtain ⟨hr, heffective⟩ := List.mem_filter.mp hr
      exact ⟨r, hr, (is_effective_iff.mp heffective).1, (is_effective_iff.mp heffective).2, hip⟩
    · rintro ⟨r, hr, hpermanent, hexpires, hip⟩
      exact ⟨r, List.mem_filter.mpr ⟨hr, is_effective_iff.mpr ⟨hpermanent, hexpires⟩⟩, hip⟩
  have hfamily : ∀ version, DesiredFamily db boundary version (family addresses version) := by
    intro version
    refine ⟨family_nodup _ _, family_sorted _ _, ?_, ?_⟩
    · intro a ha
      exact hprotected a (mem_family.mp ha).1
    · intro a
      rw [mem_family, hmem]
      exact and_comm
  refine ⟨family addresses .four, family addresses .six, ?_, hfamily .four, hfamily .six, ?_⟩
  · rw [effective_ips, hmap]
    rfl
  · have hlength := congrArg List.length hstr
    rw [List.length_map, List.length_map] at hlength
    have htotal := total_claims_le h.reachable
    have hfilter := List.length_filter_le (is_effective boundary) db.claims.rows
    have := family_length_le addresses
    rw [total_claims] at htotal
    omega

end F2bguard.Store
