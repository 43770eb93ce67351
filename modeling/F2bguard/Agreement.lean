/-
Does the receiver accept what the sender writes?

Both sides check jails, UUIDs and addresses with code of their own. For every payload that
a sender can write, `payloads_accepted_iff` says when the receiver's validators accept it
as exactly what it says: when each jail in it starts with a letter or a digit. The sender
also lets `_`, `.` and `-` stand first, and the receiver refuses these.
-/
import F2bguard.SenderRuns
import F2bguard.SenderConfig

set_option autoImplicit false

namespace F2bguard.Sender

open F2bguard.PyText F2bguard.PyJson F2bguard.Uuid F2bguard.Claims F2bguard.Runs

/-- `validate_snapshot` on the fields of an object, as `do_POST` calls it. -/
def validate_snapshot_object (raw : Json) (maximum : ℕ) : Except Raised (Text × ℕ × List Claim) :=
  match raw with
  | .obj items => validate_snapshot (field items "snapshot_id".toList) (field items "seq".toList)
      (field items "claims".toList) maximum
  | _ => invalid "request must be an object".toList

/-- What a snapshot payload says. -/
def SnapshotPayload.parsed (p : SnapshotPayload) : Text × ℕ × List Claim :=
  (p.snapshot_id, p.seq, p.claims.map SnapshotClaim.claim)

theorem parse_event_iff {p : EventPayload} (h : p.Valid) :
    parse_event (sort_keys p.wire) = .ok p.event ↔ StartsAlphanumeric p.jail := by
  rw [parse_event_wire h]
  split
  · rename_i hstart
    exact ⟨fun _ => hstart, fun _ => rfl⟩
  · rename_i hstart
    exact ⟨fun h => (by cases h), fun h => absurd h hstart⟩

theorem validate_snapshot_iff {p : SnapshotPayload} (h : p.Valid) {maximum : ℕ}
    (hmax : p.claims.length ≤ maximum) :
    validate_snapshot_object (sort_keys p.wire) maximum = .ok p.parsed ↔
      ∀ c ∈ p.claims, StartsAlphanumeric c.jail := by
  have hfields : validate_snapshot_object (sort_keys p.wire) maximum =
      validate_snapshot (.str p.snapshot_id) (.int p.seq)
        (.arr (p.claims.map (fun c => sort_keys c.wire))) maximum := by
    rw [sort_keys_snapshot]
    rfl
  rw [hfields, validate_snapshot_wire h, if_neg (not_lt.mpr hmax)]
  split
  · rename_i hstart
    exact ⟨fun _ => hstart, fun _ => rfl⟩
  · rename_i hstart
    exact ⟨fun h => (by cases h), fun h => absurd h hstart⟩

theorem jails_of_progress {read : List EnumeratedClaim} {normalized : List SnapshotClaim}
    (h : List.Forall₂ (fun (claim : EnumeratedClaim) (c : SnapshotClaim) =>
      c.jail = claim.jail ∧ canonical_ip claim.ip = .ok c.ip) read normalized) :
    normalized.map SnapshotClaim.jail = read.map EnumeratedClaim.jail := by
  induction h with
  | nil => rfl
  | cons hone _ ih => rw [List.map_cons, List.map_cons, ih, hone.1]

/-- The jails of a snapshot are those of its call's argument. -/
theorem Committed.jails {env : Env} {db db' : DB} {call : SnapshotCall} {now : ℚ}
    {snapshot_uuid : Uuid4} {p : SnapshotPayload} (hcall : call.Sound) (hrest : call.rest = [])
    (h : Committed env db call.normalized call.expected_seq now snapshot_uuid p db') (jail : Text) :
    (∃ c ∈ p.claims, c.jail = jail) ↔ ∃ claim ∈ call.claims, claim.jail = jail := by
  obtain ⟨read, hread, hall⟩ := hcall.progress
  rw [hrest, List.append_nil] at hread
  have hjails : call.normalized.map SnapshotClaim.jail = call.claims.map EnumeratedClaim.jail := by
    rw [hread]
    exact jails_of_progress hall
  have hperm : (p.claims.map SnapshotClaim.jail).Perm (call.normalized.map SnapshotClaim.jail) := by
    have := h.pairs.map Prod.fst
    rwa [List.map_map, List.map_map] at this
  rw [hjails] at hperm
  have := hperm.mem_iff (a := jail)
  rwa [List.mem_map, List.mem_map] at this

/-- **When the receiver accepts what the sender writes.** For every configuration and every state
the sender can reach: the receiver accepts an event of a configured jail, as exactly that event,
if and only if the jail starts with a letter or a digit; and it accepts a snapshot of enumerated
bans that is within the maximum, as exactly those claims, if and only if all its jails do. The
values are those of the texts in the outbox, whose keys are sorted. Nothing else the sender writes
can be refused for its form. -/
theorem payloads_accepted_iff (env : Env) (config : SenderConfig) (s : State)
    (hs : Reachable env s) :
    (∀ jail ∈ config.permanent_jails, ∀ (op ip : Text) (now : ℚ) (ban_uuid event_uuid : Uuid4)
        (p : EventPayload) (s' : State),
      Step env s (.enqueue op jail.name ip now ban_uuid event_uuid (.ok (some p))) s' →
        (parse_event (sort_keys p.wire) = .ok p.event ↔ StartsAlphanumeric jail.name)) ∧
    (∀ (runner : Text → Option Completed) (call : SnapshotCall) (now : ℚ) (snapshot_uuid : Uuid4)
        (p : SnapshotPayload) (s' : State) (maximum : ℕ),
      enumerate_permanent_jails config runner = .ok call.claims →
      Step env s (.commit call now snapshot_uuid (.ok p)) s' → p.claims.length ≤ maximum →
        (validate_snapshot_object (sort_keys p.wire) maximum = .ok p.parsed ↔
          ∀ claim ∈ call.claims, StartsAlphanumeric claim.jail)) := by
  obtain ⟨labels, hrun⟩ := hs
  have hsound := sound_run hrun
  constructor
  · intro jail _ op ip now ban_uuid event_uuid p s' hstep
    cases hstep with
    | enqueue hcall =>
      rcases enqueue_outcome hsound.claims hcall with
        ⟨e, he, -⟩ | ⟨op', ip', -, hjail, -, hip, hout⟩
      · cases he
      · cases hout with
        | recorded hrec =>
          have hp : p.jail = jail.name := by rw [hrec.payload]
          rw [← hp]
          exact parse_event_iff (hrec.valid hsound.claims hjail hip)
  · intro runner call now snapshot_uuid p s' maximum _ hstep hmax
    cases hstep with
    | @commit before after _ _ _ _ _ hcalls hrest hcommit =>
      have hcall : call.Sound := hsound.calls call (by rw [hcalls]; simp)
      rcases commit_outcome hcall.pairs hcommit with ⟨e, he, -⟩ | ⟨p', hp', hcom⟩
      · cases he
      · cases hp'
        rw [validate_snapshot_iff (hcom.valid hsound.claims hcall.valid hcall.pairs) hmax]
        have hjails := hcom.jails hcall hrest
        constructor
        · intro h claim hclaim
          obtain ⟨c, hc, hj⟩ := (hjails claim.jail).mpr ⟨claim, hclaim, rfl⟩
          rw [← hj]
          exact h c hc
        · intro h c hc
          obtain ⟨claim, hclaim, hj⟩ := (hjails c.jail).mp ⟨c, hc, rfl⟩
          rw [← hj]
          exact h claim hclaim

/-! ## Two configurations

The same run with two names of a jail, one that both sides accept and one that only the sender
does. The sample is shared by the modules about the sender below. -/

/-- Surroundings for runs on fixed inputs. -/
def sample_sender : Env where
  floats := ⟨fun _ => [], fun _ => .nan⟩
  max_depth_ge := three_le_max_depth

def sample_uuid : Uuid4 := ⟨"4c9184f3-7cf4-4f9d-8f4e-6b9a3b0d5c01".toList, by decide⟩

def sample_uuid' : Uuid4 := ⟨"4c9184f3-7cf4-4f9d-8f4e-6b9a3b0d5c02".toList, by decide⟩

/-- `urlsplit("https://firewall.example:9443")` -/
def sample_split : SplitResult where
  scheme := "https".toList
  hostname := some "firewall.example".toList
  username := none
  password := none
  fragment := []
  query := []
  port := .number 9443
  path := []

def sample_library : Library where
  urlsplit text := if text = "https://firewall.example:9443".toList then some sample_split else none
  str_of_container _ := []
  floats := ⟨fun _ => [], fun _ => .nan⟩

/-- A configuration file with one jail. -/
def sample_raw (jail : String) : Json := .obj [
  ("database".toList, .str "/var/lib/f2bguard/sender.sqlite".toList),
  ("endpoint".toList, .str "https://firewall.example:9443".toList),
  ("tls".toList, .obj [
    ("ca".toList, .str "/etc/f2bguard/ca.pem".toList),
    ("cert".toList, .str "/etc/f2bguard/client.pem".toList),
    ("key".toList, .str "/etc/f2bguard/client.key".toList)]),
  ("permanent_jails".toList, .arr [
    .obj [("name".toList, .str jail.toList), ("bantime".toList, .int (-1))]])]

/-- What `from_dict` makes of it. -/
def sample_config (jail : String) (h : ValidJail jail.toList) : SenderConfig where
  database := "/var/lib/f2bguard/sender.sqlite".toList
  endpoint := "https://firewall.example:9443/v1".toList
  ca := "/etc/f2bguard/ca.pem".toList
  cert := "/etc/f2bguard/client.pem".toList
  key := "/etc/f2bguard/client.key".toList
  permanent_jails := [⟨jail.toList, -1, h, rfl⟩]
  fail2ban_client := "/usr/bin/fail2ban-client".toList
  poll_seconds := 5
  request_timeout := 10
  initial_backoff := 1
  max_backoff := 300

/-- The event of a first ban. -/
def sample_event (jail ip : Text) : EventPayload :=
  ⟨sample_uuid'.text, 1, .ban, jail, sample_uuid.text, ip⟩

theorem sample_event_valid {jail ip : Text} (hjail : ValidJail jail) (hip : CanonicalIP ip) :
    (sample_event jail ip).Valid :=
  ⟨sample_uuid'.is_canonical, Nat.one_pos, show 1 ≤ max_seq by decide, hjail,
    sample_uuid.is_canonical, hip⟩

theorem enqueue_sample (jail ip : String) (h : (enqueue sample_sender DB.initial "ban".toList
    jail.toList ip.toList 0 sample_uuid sample_uuid').1 =
      .ok (some (sample_event jail.toList ip.toList))) :
    ∃ s', Step sample_sender State.initial (.enqueue "ban".toList jail.toList ip.toList 0
      sample_uuid sample_uuid' (.ok (some (sample_event jail.toList ip.toList)))) s' :=
  ⟨_, Step.enqueue (Prod.ext h rfl)⟩

/-- The identity of a first snapshot. -/
def sample_snapshot_uuid : Uuid4 := ⟨"4c9184f3-7cf4-4f9d-8f4e-6b9a3b0d5c03".toList, by decide⟩

/-- A sender with one active claim. -/
def sample_banned : State where
  db := (enqueue sample_sender DB.initial "ban".toList "sshd".toList "203.0.113.7".toList 0
    sample_uuid sample_uuid').2
  calls := []
  sending := none

theorem sample_banned_step : Step sample_sender State.initial
    (.enqueue "ban".toList "sshd".toList "203.0.113.7".toList 0 sample_uuid sample_uuid'
      (.ok (some (sample_event "sshd".toList "203.0.113.7".toList)))) sample_banned :=
  Step.enqueue (Prod.ext (by decide) rfl)

/-- The receiver accepts the first ban of the jail `sshd`. -/
theorem payloads_accepted_sshd :
    SenderConfig.from_dict sample_library (sample_raw "sshd") =
        .ok (sample_config "sshd" (by decide)) ∧
      parse_event (sort_keys (sample_event "sshd".toList "203.0.113.7".toList).wire) =
        .ok (sample_event "sshd".toList "203.0.113.7".toList).event := by
  refine ⟨rfl, ?_⟩
  obtain ⟨s', hstep⟩ := enqueue_sample "sshd" "203.0.113.7" (by decide)
  exact ((payloads_accepted_iff sample_sender (sample_config "sshd" (by decide)) State.initial
    ⟨[], Run.nil⟩).1 _ (List.mem_singleton.mpr rfl) _ _ _ _ _ _ s' hstep).mpr (by decide)

/-- The sender's configuration accepts the jail `_x` and writes its bans, and the receiver
refuses them. -/
theorem underscore_jail_refused :
    SenderConfig.from_dict sample_library (sample_raw "_x") =
        .ok (sample_config "_x" (by decide)) ∧
      (∃ s', Step sample_sender State.initial (.enqueue "ban".toList "_x".toList
        "203.0.113.7".toList 0 sample_uuid sample_uuid'
        (.ok (some (sample_event "_x".toList "203.0.113.7".toList)))) s') ∧
      parse_event (sort_keys (sample_event "_x".toList "203.0.113.7".toList).wire) =
        invalid "jail is invalid".toList :=
  ⟨rfl, enqueue_sample "_x" "203.0.113.7" (by decide),
    (parse_event_wire (sample_event_valid (by decide) (canonical_ip_eq_ok
      (show canonical_ip "203.0.113.7".toList = .ok "203.0.113.7".toList by decide)))).trans
      (if_neg (by decide))⟩

end F2bguard.Sender
